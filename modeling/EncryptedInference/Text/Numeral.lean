/-!
# Decimal numerals

Whole numbers as they are written for settings: ASCII digits, at least one, behind an optional sign.
-/

namespace EncryptedInference.Text

/-- The number that decimal digits write. -/
def digitsValue (ds : List Char) : Nat :=
  ds.foldl (fun n d => 10 * n + (d.toNat - 48)) 0

/-- The number that characters write, if they are digits and not none at all. -/
def numeral? (ds : List Char) : Option Nat :=
  if !ds.isEmpty && ds.all Char.isDigit then some (digitsValue ds) else none

/-- A number that is not negative. Only a plus may be its sign. -/
def natural? (s : String) : Option Nat :=
  match s.toList with
  | '+' :: ds => numeral? ds
  | ds => numeral? ds

/-- A number with either sign. -/
def integer? (s : String) : Option Int :=
  match s.toList with
  | '-' :: ds => (numeral? ds).map fun n => -(n : Int)
  | '+' :: ds => (numeral? ds).map Int.ofNat
  | ds => (numeral? ds).map Int.ofNat

end EncryptedInference.Text
