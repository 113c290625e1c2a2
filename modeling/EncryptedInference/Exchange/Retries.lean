import EncryptedInference.Exchange.Connection
/-!
# Retrying step by step

A connection can also be tried in a loop with a counter that remembers the last failure. As the loop
goes it decides whether a failure is final, and whether to pause before the next attempt; when no
attempt is left it reports what it remembers.
-/

namespace EncryptedInference

/-- Something done on the way to a connection. -/
inductive RetryStep
  | attempted (number : Nat)
  | paused (milliseconds : Nat)
  deriving DecidableEq

namespace RetryPolicy

variable {α : Type}

/-- Makes attempt number `i`, and the others of the `left` attempts that are left; `fallback` is
reported for want of a failure. -/
def loop (p : RetryPolicy) (address fallback : String) (attempt : Nat → Except String α) :
    (left i : Nat) → (lastError : Option String) → List RetryStep × Except ConnectionError α
  | 0, _, lastError =>
    ([], .error (.retriesExhausted address p.attempts (lastError.getD fallback)))
  | left + 1, i, _ => match attempt i with
    | .ok value => ([.attempted i], .ok value)
    | .error reason =>
      if p.attempts = 1 then ([.attempted i], .error (.connect address reason))
      else
        let pause := if i + 1 < p.attempts then [.paused p.pause] else []
        let (steps, result) := loop p address fallback attempt left (i + 1) (some reason)
        (.attempted i :: (pause ++ steps), result)

/-- All that is done to make a connection, and what it leads to. -/
def steps (p : RetryPolicy) (address : String) (attempt : Nat → Except String α) :
    List RetryStep × Except ConnectionError α :=
  p.loop address "unknown" attempt p.attempts 0 none

end RetryPolicy

end EncryptedInference
