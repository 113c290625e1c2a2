import EncryptedInference.Double.Basic
/-!
# Written numbers

A number as it is written: digits before and after a point, and a power of ten. `Written.toDouble?`
says which double it stands for. Leading digits count as long as they fit a word of 64 bits; the
number that they write becomes a double, and that is multiplied or divided by a power of ten which
is a double too. So a number with few digits and a small power stands for the nearest double, while
other numbers may miss it by a little, or be too large although the largest double is near.
-/

namespace EncryptedInference

/-- A number as it is written, apart from its sign. -/
structure Written where
  /-- The digits before the point. -/
  whole : List Char
  /-- The digits after the point. -/
  places : List Char
  /-- The power of ten behind the digits. -/
  power : Option Int
  deriving DecidableEq, Inhabited

namespace Written

/-- A whole number in its digits. -/
def ofNat (n : Nat) : Written := ⟨Nat.toDigits 10 n, [], none⟩

/-- Neither places nor a power of ten are written. -/
def isWhole (w : Written) : Bool := w.places.isEmpty && w.power.isNone

def powerText (power : Int) : String :=
  (if power < 0 then "e-" else "e+") ++ toString power.natAbs

def text (w : Written) : String :=
  String.ofList w.whole ++
    (if w.places.isEmpty then "" else String.ofList ('.' :: w.places)) ++
    (w.power.map powerText).getD ""

/-! ## Words -/

/-- One more than the largest number in a word of 64 bits. -/
def wordLimit : Nat := 0x10000000000000000

/-- Appends digits to a number as long as it fits a word: the number, and the digits that are
left. -/
def append (n : Nat) : List Char → Nat × List Char
  | [] => (n, [])
  | d :: ds =>
    let next := 10 * n + (d.toNat - 48)
    if next < wordLimit then append next ds else (n, d :: ds)

theorem append_lt {n : Nat} (h : n < wordLimit) (ds : List Char) : (append n ds).1 < wordLimit := by
  induction ds generalizing n with
  | nil => exact h
  | cons d ds ih =>
    rw [append]
    split
    · rename_i hnext
      exact ih hnext
    · exact h

/-- The word that a whole number is, if it fits one. -/
def word? (w : Written) : Option Nat :=
  match w.isWhole, append 0 w.whole with
  | true, (n, []) => some n
  | _, _ => none

/-- The leading digits as a word, and the power of ten of the last of them. Digits before the point
that are left out count as zeros. -/
def leading (w : Written) : Nat × Int :=
  let (n, left) := append 0 w.whole
  let (n, cut) := append n w.places
  (n, (left.length : Int) - (w.places.length - cut.length : Nat) + w.power.getD 0)

/-! ## Doubles -/

/-- The largest power of ten that is a double. -/
def maxPower : Nat := 308

/-- A word times `10 ^ power`, computed in doubles; `none` if that is too large. A power below the
smallest that has an inverse takes two divisions, and after two of the largest nothing is left of a
word. -/
def scale? (n : Nat) (power : Int) : Option Double :=
  let x := Double.ofNat n
  if x.isZero then some x
  else if (maxPower : Int) < power then none
  else if 0 ≤ power then some (x.product (.powerOfTen power.toNat)) |>.filter Double.isFinite
  else
    let down := (-power).toNat
    if down ≤ maxPower then some (x.ratio (.powerOfTen down))
    else if down ≤ 2 * maxPower then
      some ((x.ratio (.powerOfTen maxPower)).ratio (.powerOfTen (down - maxPower)))
    else some .zero

/-- The double that a number with a given sign stands for, unless it is too large. -/
def toDouble? (negative : Bool) (w : Written) : Option Double :=
  let (n, power) := w.leading
  (scale? n power).map fun x => { x with negative }

end Written

end EncryptedInference
