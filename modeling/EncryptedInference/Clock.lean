import EncryptedInference.Double.Decimal
/-!
# Times

Times and durations are whole milliseconds. Whoever sleeps wakes up after the time asked for, but
never sleeps longer than thirty years.
-/

namespace EncryptedInference

/-- The longest sleep: thirty years of 365 days. -/
def longestSleep : Nat := 30 * 365 * 24 * 60 * 60 * 1000

/-- How long a sleep lasts. -/
def sleepLength (milliseconds : Nat) : Nat := min milliseconds longestSleep

theorem sleepLength_eq {milliseconds : Nat} (h : milliseconds ≤ longestSleep) :
    sleepLength milliseconds = milliseconds :=
  Nat.min_eq_left h

/-- A duration in its largest unit, without trailing zeros. -/
def durationText (milliseconds : Nat) : String :=
  if milliseconds = 0 then "0ns"
  else if milliseconds < 1000 then toString milliseconds ++ "ms"
  else DecimalStyle.plain.write (Decimal.normalize ⟨milliseconds, -3⟩) ++ "s"

end EncryptedInference
