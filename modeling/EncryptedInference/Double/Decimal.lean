import EncryptedInference.Double.Written
/-!
# Decimal texts of doubles

`Double.shortest` finds the fewest decimal digits that read back as the same double, and of those
the nearest to it. A `DecimalStyle` says how such digits are laid out; `Double.fixed` writes a given
number of places instead, rounding the exact value.
-/

namespace EncryptedInference

/-- The number `digits · 10 ^ exponent`. -/
structure Decimal where
  digits : Nat
  exponent : Int
  deriving DecidableEq, Inhabited

namespace Decimal

/-- Moves one trailing zero of the digits into the exponent, as often as `fuel` allows. -/
def stripZeros : Nat → Decimal → Decimal
  | 0, d => d
  | fuel + 1, d =>
    if d.digits ≠ 0 ∧ d.digits % 10 = 0 then stripZeros fuel ⟨d.digits / 10, d.exponent + 1⟩ else d

/-- The same number without trailing zeros in its digits; zero is `0 · 10 ^ 0`. -/
def normalize (d : Decimal) : Decimal :=
  if d.digits = 0 then ⟨0, 0⟩ else stripZeros (Double.digitCount d.digits) d

end Decimal

/-- Which way a decimal exactly between two candidates goes. -/
inductive Tie
  | toEven
  | away
  deriving DecidableEq

namespace Double

/-- The number of the decimal digits before the point of `num / den`, less one: the power of ten of
its first digit. -/
def leadingPower (num den : Nat) : Int :=
  let guess : Int := (digitCount num : Int) - digitCount den
  if num * Nat.pow 10 (-guess).toNat < den * Nat.pow 10 guess.toNat then guess - 1 else guess

/-- Whether a decimal reads back with the magnitude of `x`. -/
def readsAs (x : Double) (d : Decimal) : Bool :=
  (ofDecimal x.negative d.digits d.exponent) = x

/-- The better of the two neighbours of `x` among the multiples of `10 ^ power`, if one of them
reads back: the nearer one when both do. -/
def candidate? (tie : Tie) (x : Double) (power : Int) : Option Decimal :=
  let num := x.numerator * Nat.pow 10 (-power).toNat
  let den := x.denominator * Nat.pow 10 power.toNat
  let below : Decimal := ⟨num / den, power⟩
  let above : Decimal := ⟨num / den + 1, power⟩
  let twice := 2 * (num % den)
  let up := den < twice ∨ (twice = den ∧ (tie = .away ∨ below.digits % 2 = 1))
  match x.readsAs below, x.readsAs above with
  | true, true => some (if up then above else below)
  | true, false => some below
  | false, true => some above
  | false, false => none

/-- The exact decimal expansion of a finite double. -/
def exactDecimal (x : Double) : Decimal :=
  ⟨x.numerator * Nat.pow 5 (-x.exponent).toNat, min x.exponent 0⟩

/-- The decimal with the fewest digits that reads back as the finite double `x`, and of those the
nearest to `x`. Seventeen digits are enough for every double. -/
def shortest (tie : Tie) (x : Double) : Decimal :=
  if x.isZero then ⟨0, 0⟩ else
    let lead := leadingPower x.numerator x.denominator
    let found := (List.range 17).findSome? fun (n : Nat) => candidate? tie x (lead - n)
    (found.getD x.exactDecimal).normalize

end Double

/-- How the digits of a decimal are laid out. -/
structure DecimalStyle where
  /-- Numbers whose first digit stands for `10 ^ p` with `low ≤ p < high` are written positionally;
  without bounds, all are. -/
  positional : Option (Int × Int)
  /-- Whether a whole number written positionally ends in `.0`. -/
  pointed : Bool
  /-- Which way a tie between two shortest decimals goes. -/
  tie : Tie

namespace DecimalStyle

/-- Plain notation: no exponent and no fraction that is not there. -/
def plain : DecimalStyle := ⟨none, false, .away⟩

/-- The notation of numbers in documents: positional from `1e-5` up to `1e16`, otherwise
scientific. -/
def document : DecimalStyle := ⟨some (-5, 16), true, .toEven⟩

/-- Digits with a point before the last `places` of them. -/
def withPlaces (digits : List Char) (places : Nat) : Written :=
  let padded := List.replicate (places + 1 - digits.length) '0' ++ digits
  let whole := padded.length - places
  ⟨padded.take whole, padded.drop whole, none⟩

/-- How a non-negative decimal is laid out in this style. -/
def layOut (style : DecimalStyle) (d : Decimal) : Written :=
  let digits := Nat.toDigits 10 d.digits
  let lead : Int := d.exponent + digits.length - 1
  let positional := match style.positional with
    | none => true
    | some (low, high) => d.digits = 0 ∨ (low ≤ lead ∧ lead < high)
  if positional then
    if 0 ≤ d.exponent then
      ⟨digits ++ List.replicate d.exponent.toNat '0', if style.pointed then ['0'] else [], none⟩
    else withPlaces digits (-d.exponent).toNat
  else ⟨digits.take 1, digits.drop 1, some lead⟩

/-- A non-negative decimal in this style. -/
def write (style : DecimalStyle) (d : Decimal) : String := (style.layOut d).text

end DecimalStyle

namespace Double

/-- The sign of a number, in front of its digits. -/
def signText (negative : Bool) : String := if negative then "-" else ""

/-- The text of a double in messages: `NaN`, `inf`, or its shortest digits in plain notation. -/
def toText (x : Double) : String :=
  if x.isNaN then "NaN"
  else signText x.negative ++
    (if x.isFinite then DecimalStyle.plain.write (x.shortest DecimalStyle.plain.tie) else "inf")

/-- A double with a fixed number of places: its exact value rounded, a half to the even
neighbour. -/
def fixed (x : Double) (places : Nat) : String :=
  if x.isNaN then "NaN"
  else signText x.negative ++
    (if x.isFinite then
      let units := roundHalfEven (x.numerator * Nat.pow 10 places) x.denominator
      (DecimalStyle.withPlaces (Nat.toDigits 10 units) places).text
    else "inf")

end Double

end EncryptedInference
