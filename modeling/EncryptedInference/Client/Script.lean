import EncryptedInference.Client.Basic
/-!
# Scripted channels

A channel that answers from a list, then always alike, or not at all.
-/

namespace EncryptedInference

/-- What a channel is going to answer. -/
structure Script where
  answers : List Answer
  /-- The answer after the last of the list; without it, the channel is closed. -/
  fallback : Option Answer
  /-- Whether a message without an answer gets through. -/
  notifies : Bool

namespace Script

/-- The answer of a channel that is closed. -/
def closed : Answer := ⟨0, .error .closed⟩

/-- The next answer of a channel, and the answers that follow it. -/
def next (script : Script) : Answer × List Answer :=
  match script.answers with
  | answer :: rest => (answer, rest)
  | [] => (script.fallback.getD closed, [])

/-- A channel sleeps for the delay of an answer before it gives it. -/
def transport : Transport Script where
  call script _ :=
    let (answer, answers) := script.next
    ({ answer with delay := sleepLength answer.delay }, { script with answers })
  notify script _ := (if script.notifies then .ok () else .error .closed, script)

end Script

end EncryptedInference
