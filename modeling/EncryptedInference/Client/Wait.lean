import EncryptedInference.Client.Operations
/-!
# Waiting for a request

A waiting client asks for the state of its request at regular times: at once, and then one interval
after each time it was due to ask. If it is late, it asks as soon as it can, and from then on counts
anew. A wait ends with the first answer that ends it, or when its deadline strikes, which may be
while an answer is awaited. It need not end at all, so it is followed for a number of polls, and how
far it has come then is told (`Progress`).
-/

namespace EncryptedInference

/-- How a client waits, in milliseconds. -/
structure PollPolicy where
  interval : Nat
  timeout : Option Nat
  deriving DecidableEq

namespace PollPolicy

/-- Once a second, without end. -/
def standard : PollPolicy := ⟨1000, none⟩

end PollPolicy

/-- A client that is late by no more than this, in milliseconds, keeps its times. -/
def tolerance : Nat := 5

/-- When to ask next, after asking at `time` when it was due at `due`. -/
def nextDue (interval due time : Nat) : Nat :=
  if due + tolerance < time then time + interval else due + interval

/-- How far an operation that waits has come when so many of its polls are followed. -/
inductive Progress (α : Type)
  /-- It has returned. -/
  | returned (result : Except ClientError α)
  /-- The timer has panicked, for it cannot tick without any time in between. -/
  | panicked
  /-- It goes on. -/
  | ongoing

namespace TimedClient

variable {σ : Type}

/-- Asks at `due`, or at once if that is over, and so on, followed for so many polls. -/
def waitFrom (t : Transport σ) (interval : Nat) (deadline : Option Deadline) :
    (polls due : Nat) → TimedClient σ → Progress Unit × TimedClient σ
  | 0, _, s => (.ongoing, s)
  | polls + 1, due, s =>
    let time := max due s.clock
    match Deadline.strikesBefore deadline time with
    | some d => (.returned (.error d.reason), { s.abandon with clock := max s.clock d.time })
    | none => match pollBefore t deadline { s with clock := time } with
      | (.error e, s) => (.returned (.error e), s)
      | (.ok .completed, s) => (.returned (.ok ()), s)
      | (.ok .pending, s) => waitFrom t interval deadline polls (nextDue interval due time) s

/-- The deadline that strikes when somebody wakes up who now goes to sleep. -/
def deadlineIn (s : TimedClient σ) (milliseconds : Nat) (reason : ClientError) : Deadline :=
  ⟨s.clock + sleepLength milliseconds, reason⟩

/-- Waits until the request is completed, the time of the policy is over, or `cancel` milliseconds
have passed. -/
def wait (t : Transport σ) (polls : Nat) (policy : PollPolicy) (cancel : Option Nat)
    (s : TimedClient σ) : Progress Unit × TimedClient σ :=
  match s.inFlight "wait_for_completion" with
  | .error e => (.returned (.error e), s)
  | .ok _ =>
    let timeout := policy.timeout.map fun ms => s.deadlineIn ms (.timeout ms)
    let cancelled := cancel.map fun ms => s.deadlineIn ms .cancelled
    if policy.interval = 0 then (.panicked, s)
    else waitFrom t policy.interval (Deadline.earlier timeout cancelled) polls s.clock s

/-- Submits a request, waits for it and fetches its result. -/
def run (t : Transport σ) (polls : Nat) (policy : PollPolicy) (request : Request)
    (s : TimedClient σ) : Progress InferenceResult × TimedClient σ :=
  match s.send t request with
  | (.error e, s) => (.returned (.error e), s)
  | (.ok _, s) => match s.wait t polls policy none with
    | (.returned (.error e), s) => (.returned (.error e), s)
    | (.returned (.ok ()), s) => Prod.map .returned id (s.getResults t)
    | (.panicked, s) => (.panicked, s)
    | (.ongoing, s) => (.ongoing, s)

end TimedClient

end EncryptedInference
