/-!
# Doubles as sign and magnitude

A double-precision number is kept as the word it travels as, cut in two: the sign bit and the other
63 bits read as a number, the *magnitude*. Magnitudes order the non-negative doubles, infinity and
the NaNs last, so finiteness, the total order and the comparison with zero are read off them and no
arithmetic on doubles is needed. `Double.ofRatio` is the one way from numbers to doubles: the
nearest double of a quotient of naturals, a half going to the even neighbour.
-/

namespace EncryptedInference

/-- A double-precision number: its sign bit, and the remaining 63 bits read as a number. -/
structure Double where
  negative : Bool
  magnitude : Fin 0x8000000000000000
  deriving DecidableEq, Inhabited

/-- `num / den` rounded to the nearest whole number, a half to the even neighbour. -/
def roundHalfEven (num den : Nat) : Nat :=
  let whole := num / den
  let twice := 2 * (num % den)
  if twice < den ∨ (twice = den ∧ whole % 2 = 0) then whole else whole + 1

namespace Double

/-- The magnitude of infinity: all exponent bits set and no fraction bit. -/
def infinityMagnitude : Nat := 0x7FF0000000000000

/-! ## Words -/

/-- The 64-bit word of a double. -/
def toBits (x : Double) : Nat :=
  (if x.negative then 0x8000000000000000 else 0) + x.magnitude.val

/-! ## Kinds of double -/

def isFinite (x : Double) : Bool := x.magnitude.val < infinityMagnitude

def isNaN (x : Double) : Bool := infinityMagnitude < x.magnitude.val

def isZero (x : Double) : Bool := x.magnitude.val = 0

/-- Positive zero. -/
def zero : Double := ⟨false, 0⟩

/-- The infinity of a given sign. -/
def infinity (negative : Bool) : Double := ⟨negative, 0x7FF0000000000000⟩

/-- The positive NaN without a payload. -/
def nan : Double := ⟨false, 0x7FF8000000000000⟩

/-- Greater than zero; neither zero is, and no NaN is. -/
def isPositive (x : Double) : Bool := !x.negative && !x.isZero && !x.isNaN

/-- Less than zero; neither zero is, and no NaN is. -/
def isNegative (x : Double) : Bool := x.negative && !x.isZero && !x.isNaN

/-! ## Total order -/

/-- The place of a double in the IEEE total order: from the negative NaNs through `-0` and `0` to
the positive NaNs, each word with a place of its own. -/
def place (x : Double) : Int :=
  if x.negative then -(x.magnitude.val : Int) - 1 else x.magnitude.val

/-! ## Exact values -/

/-- The significand of a finite double: its absolute value is `significand · 2 ^ exponent`. -/
def significand (x : Double) : Nat :=
  let fraction := x.magnitude.val % 0x10000000000000
  if x.magnitude.val < 0x10000000000000 then fraction else fraction + 0x10000000000000

/-- The binary exponent that goes with `significand`. -/
def exponent (x : Double) : Int :=
  (max (x.magnitude.val / 0x10000000000000) 1 : Nat) - 1075

/-- Numerator of the absolute value of a finite double. -/
def numerator (x : Double) : Nat := x.significand <<< x.exponent.toNat

/-- Denominator of the absolute value of a finite double. -/
def denominator (x : Double) : Nat := 1 <<< (-x.exponent).toNat

/-! ## Nearest doubles -/

/-- The exponent of the last place of the doubles near `num / den`: the quotient fills 53 bits above
it, or fewer when it is subnormal. -/
def lastPlace (num den : Nat) : Int :=
  let low : Int := (num.log2 : Int) - den.log2 - 53
  let fits := num <<< (-low).toNat < den <<< (low.toNat + 53)
  max (if fits then low else low + 1) (-1074)

/-- The magnitude of the double nearest to `num / den`; beyond the largest double, infinity. -/
def nearestMagnitude (num den : Nat) : Nat :=
  if num = 0 then 0 else
    let e := lastPlace num den
    let units := roundHalfEven (num <<< (-e).toNat) (den <<< e.toNat)
    min (((e + 1074).toNat <<< 52) + units) infinityMagnitude

/-- The double nearest to `num / den` with a given sign. -/
def ofRatio (negative : Bool) (num den : Nat) : Double :=
  ⟨negative, Fin.ofNat 0x8000000000000000 (nearestMagnitude num den)⟩

/-- How many decimal digits a number has. -/
def digitCount (n : Nat) : Nat := (Nat.toDigits 10 n).length

/-- The double nearest to `digits · 10 ^ exponent`. Numbers far outside the range of doubles are
told apart by their digit count, so the work is bounded whatever the exponent. -/
def ofDecimal (negative : Bool) (digits : Nat) (exponent : Int) : Double :=
  let top := exponent + digitCount digits
  if digits = 0 ∨ top < -400 then ⟨negative, 0⟩
  else if 400 < top then infinity negative
  else ofRatio negative (digits * Nat.pow 10 exponent.toNat) (Nat.pow 10 (-exponent).toNat)

/-- A whole number as a double. -/
def ofNat (n : Nat) : Double := ofRatio false n 1

/-- The quotient of two whole numbers as a double; `n / 0` is infinite, `0 / 0` no number. -/
def quotient (n d : Nat) : Double :=
  if d = 0 then if n = 0 then nan else infinity false
  else ofRatio false n d

/-- The double nearest to a power of ten. -/
def powerOfTen (k : Nat) : Double := ofNat (Nat.pow 10 k)

/-- The double nearest to the product of two finite doubles. -/
def product (x y : Double) : Double :=
  ofRatio (x.negative != y.negative) (x.numerator * y.numerator) (x.denominator * y.denominator)

/-- The double nearest to a finite double divided by another that is not zero. -/
def ratio (x y : Double) : Double :=
  ofRatio (x.negative != y.negative) (x.numerator * y.denominator) (x.denominator * y.numerator)

/-- A double times a positive whole number, rounded to the nearest double. -/
def times (x : Double) (k : Nat) : Double :=
  if x.isFinite then ofRatio x.negative (x.numerator * k) x.denominator else x

end Double

end EncryptedInference
