import EncryptedInference.Double.Basic
import Mathlib.Algebra.Group.Nat.Defs
import Mathlib.Order.Monotone.Basic
import Mathlib.Tactic.Common

/-!
# Doubles as numbers

A finite double is a whole number of times the smallest positive one (`Double.units`).  In the total
order doubles stand as these numbers do, except that it has negative zero before zero
(`Double.place_lt_iff`).  Where zero has no sign (`Double.canonical`), the two orders are the same.
As words, too, doubles are in the total order once the negative ones are turned over
(`Double.place_eq_toInt`).
-/

namespace EncryptedInference.Double

/-! ## Multiples of the smallest double -/

/-- The absolute value of a finite double, in units of the smallest positive double `2 ^ -1074`. -/
def size (x : Double) : Nat := x.significand * 2 ^ (x.exponent + 1074).toNat

/-- The value of a finite double, in units of the smallest positive double. -/
def units (x : Double) : Int := if x.negative then -x.size else x.size

/-- The size of the doubles of a magnitude: the exponent is what stands above 52 bits, and a double
with an exponent has one bit more than are written. -/
def sizeAt (magnitude : Nat) : Nat :=
  if magnitude < 0x10000000000000 then magnitude
  else (magnitude % 0x10000000000000 + 0x10000000000000) * 2 ^ (magnitude / 0x10000000000000 - 1)

theorem size_eq (x : Double) : x.size = sizeAt x.magnitude.val := by
  unfold size sizeAt significand exponent
  generalize x.magnitude.val = m
  by_cases hsmall : m < 0x10000000000000
  · have hexponent : ((max (m / 0x10000000000000) 1 : Nat) - 1075 + 1074 : Int).toNat = 0 := by
      omega
    rw [hexponent, if_pos hsmall, Nat.pow_zero, Nat.mul_one]
    simp only [hsmall, if_true, Nat.mod_eq_of_lt]
  · have hexponent : ((max (m / 0x10000000000000) 1 : Nat) - 1075 + 1074 : Int).toNat =
        m / 0x10000000000000 - 1 := by
      omega
    rw [hexponent, if_neg hsmall]
    simp only [hsmall, if_false]

/-- Greater magnitudes have greater sizes; where the exponent changes, the bit that is not written
takes up what was carried. -/
theorem sizeAt_strictMono : StrictMono sizeAt := by
  refine strictMono_nat_of_lt_succ fun m => ?_
  unfold sizeAt
  by_cases hsmall : m + 1 < 0x10000000000000
  · rw [if_pos hsmall, if_pos (by omega)]
    omega
  rw [if_neg hsmall]
  by_cases hlast : m < 0x10000000000000
  · obtain rfl : m = 0xFFFFFFFFFFFFF := by omega
    decide
  rw [if_neg hlast]
  by_cases hcarry : m % 0x10000000000000 = 0xFFFFFFFFFFFFF
  · have hfraction : (m + 1) % 0x10000000000000 = 0 := by omega
    have hexponent : (m + 1) / 0x10000000000000 - 1 = (m / 0x10000000000000 - 1) + 1 := by omega
    rw [hcarry, hfraction, hexponent, Nat.pow_succ']
    have hpos := Nat.two_pow_pos (m / 0x10000000000000 - 1)
    omega
  · have hfraction : (m + 1) % 0x10000000000000 = m % 0x10000000000000 + 1 := by omega
    have hexponent : (m + 1) / 0x10000000000000 = m / 0x10000000000000 := by omega
    rw [hfraction, hexponent]
    exact Nat.mul_lt_mul_of_pos_right (by omega) (Nat.two_pow_pos _)

variable {x y : Double}

theorem size_lt_iff : x.size < y.size ↔ x.magnitude.val < y.magnitude.val := by
  rw [size_eq, size_eq, sizeAt_strictMono.lt_iff_lt]

theorem size_eq_zero_iff : x.size = 0 ↔ x.magnitude.val = 0 := by
  have hzero : x.size = 0 ↔ sizeAt x.magnitude.val = sizeAt 0 := by rw [size_eq]; rfl
  rw [hzero, sizeAt_strictMono.injective.eq_iff]

/-! ## The two orders -/

/-- Negative zero. -/
def minusZero : Double := { zero with negative := true }

/-- The total order is the order of the numbers, with negative zero before zero. -/
theorem place_lt_iff :
    x.place < y.place ↔ x.units < y.units ∨ x = minusZero ∧ y = zero := by
  obtain ⟨xneg, xmag⟩ := x
  obtain ⟨yneg, ymag⟩ := y
  have hlt := @size_lt_iff ⟨xneg, xmag⟩ ⟨yneg, ymag⟩
  have hgt := @size_lt_iff ⟨yneg, ymag⟩ ⟨xneg, xmag⟩
  have hx := @size_eq_zero_iff ⟨xneg, xmag⟩
  have hy := @size_eq_zero_iff ⟨yneg, ymag⟩
  simp only [place, units, minusZero, zero, Double.mk.injEq, Fin.ext_iff, Fin.val_zero] at *
  cases xneg <;> cases yneg <;> simp <;> omega

theorem isPositive_iff : x.isPositive = true ↔ 0 < x.place ∧ x.isNaN = false := by
  obtain ⟨negative, magnitude⟩ := x
  cases negative <;> simp [isPositive, place, isZero, Nat.pos_iff_ne_zero]

theorem place_le_zero_of_isZero (h : x.isZero = true) : x.place ≤ 0 := by
  have hzero : x.magnitude.val = 0 := by simpa [isZero] using h
  unfold place
  split_ifs <;> omega

/-- The NaNs without a sign come after infinity. -/
theorem infinityMagnitude_lt_place_iff :
    infinityMagnitude < x.place ↔ x.isNaN = true ∧ x.negative = false := by
  obtain ⟨negative, magnitude⟩ := x
  cases negative with
  | false => simp [place, isNaN]
  | true =>
    refine iff_of_false ?_ (fun h => nomatch h.2)
    simp only [place, if_true]
    omega

theorem place_injective : Function.Injective place := by
  intro x y h
  obtain ⟨xneg, xmag⟩ := x
  obtain ⟨yneg, ymag⟩ := y
  simp only [place, Double.mk.injEq, Fin.ext_iff] at *
  cases xneg <;> cases yneg <;> simp at * <;> omega

/-! ## Words -/

/-- The word of a double, with the bits below the sign bit turned over where that is set. -/
def key (x : Double) : BitVec 64 :=
  let word := BitVec.ofNat 64 x.toBits
  if word.msb then word ^^^ 0x7FFFFFFFFFFFFFFF#64 else word

theorem ofNat_toBits (x : Double) :
    BitVec.ofNat 64 x.toBits = BitVec.ofBool x.negative ++ BitVec.ofNat 63 x.magnitude.val := by
  obtain ⟨negative, magnitude⟩ := x
  have hlt := magnitude.isLt
  apply BitVec.eq_of_toNat_eq
  rw [BitVec.toNat_append, ← Nat.shiftLeft_add_eq_or_of_lt (BitVec.isLt _)]
  cases negative <;> simp [toBits] <;> omega

theorem key_eq (x : Double) : x.key = BitVec.ofBool x.negative ++
    if x.negative then ~~~BitVec.ofNat 63 x.magnitude.val
    else BitVec.ofNat 63 x.magnitude.val := by
  have hmask : 0x7FFFFFFFFFFFFFFF#64 = 0#1 ++ BitVec.allOnes 63 := by decide
  have hsign : (BitVec.ofBool x.negative ++ BitVec.ofNat 63 x.magnitude.val).msb = x.negative := by
    rw [BitVec.msb_append]
    simp
  rw [key, ofNat_toBits, hsign, hmask]
  cases x.negative with
  | false => rfl
  | true => rw [if_pos rfl, if_pos rfl, BitVec.xor_append, BitVec.xor_allOnes, BitVec.xor_zero]

/-- The total order is that of the keys as signed numbers. -/
theorem place_eq_toInt (x : Double) : x.place = x.key.toInt := by
  have hlt := x.magnitude.isLt
  rw [key_eq, BitVec.toInt_append, place]
  cases x.negative with
  | false => simp
  | true =>
    simp [BitVec.toNat_not]
    omega

/-! ## Zero without a sign -/

/-- The same number, with zero for negative zero. -/
def canonical (x : Double) : Double := if x = minusZero then zero else x

theorem canonical_ne_minusZero (x : Double) : x.canonical ≠ minusZero := by
  unfold canonical
  split_ifs with hx
  · decide
  · exact hx

@[simp] theorem units_canonical (x : Double) : x.canonical.units = x.units := by
  unfold canonical
  split_ifs with hx
  · rw [hx]
    decide
  · rfl

@[simp] theorem isFinite_canonical (x : Double) : x.canonical.isFinite = x.isFinite := by
  unfold canonical
  split_ifs with hx
  · rw [hx]
    decide
  · rfl

theorem place_canonical_lt_iff : x.canonical.place < y.canonical.place ↔ x.units < y.units := by
  rw [place_lt_iff, units_canonical, units_canonical]
  exact or_iff_left fun h => canonical_ne_minusZero x h.1

end EncryptedInference.Double
