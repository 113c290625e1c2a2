import EncryptedInference.Clock
import EncryptedInference.Exchange.Frame
/-!
# Connections

What can go wrong on the way to a server and with it, and how often a connection is tried.
-/

namespace EncryptedInference

/-- What is wrong with the greeting of a server. -/
inductive HandshakeFault
  | otherVersion (version : Nat)
  | refused (message : String)
  | notHello (kind : String)
  deriving DecidableEq

/-- What can go wrong on a connection. -/
inductive ConnectionError
  | connect (address reason : String)
  | frame (error : FrameError)
  | handshake (fault : HandshakeFault)
  | retriesExhausted (address : String) (attempts : Nat) (lastError : String)
  | closed
  deriving DecidableEq

namespace HandshakeFault

def message : HandshakeFault → String
  | otherVersion v =>
    "server speaks protocol " ++ toString v ++ ", client speaks " ++ toString protocolVersion
  | refused message => message
  | notHello kind => "expected hello, got " ++ kind

end HandshakeFault

namespace ConnectionError

def message : ConnectionError → String
  | connect address reason => "failed to connect to " ++ address ++ ": " ++ reason
  | frame e => "frame error: " ++ e.message
  | handshake fault => "handshake failed: " ++ fault.message
  | retriesExhausted address attempts lastError =>
    "connect to " ++ address ++ " failed after " ++ toString attempts ++ " attempts: " ++ lastError
  | closed => "connection closed by peer"

/-- A frame that cannot be read, on a connection: at its end the connection is closed. -/
def ofFrameError : FrameError → ConnectionError
  | .closed => .closed
  | e => .frame e

end ConnectionError

/-! ## Retries -/

/-- How often a connection is tried, and the pause between two attempts in milliseconds. -/
structure RetryPolicy where
  maxAttempts : Nat
  backoff : Nat
  deriving DecidableEq

namespace RetryPolicy

/-- One attempt. -/
def standard : RetryPolicy := ⟨1, 2000⟩

/-- The number of attempts: at least one. -/
def attempts (p : RetryPolicy) : Nat := max p.maxAttempts 1

/-- How long the pause between two attempts lasts. -/
def pause (p : RetryPolicy) : Nat := sleepLength p.backoff

/-- What trying led to: the outcome, how many attempts were made, and how long they paused. -/
structure Outcome (α : Type) where
  result : Except ConnectionError α
  runs : Nat
  slept : Nat

/-- Why a connection was not made, after the last of `attempts` attempts failed for `reason`. -/
def failure (address : String) (attempts : Nat) (reason : String) : ConnectionError :=
  if attempts = 1 then .connect address reason else .retriesExhausted address attempts reason

/-- Makes attempt number `run`, and after a failure and a pause the `left` attempts that follow. -/
def retry {α : Type} (p : RetryPolicy) (address : String) (attempt : Nat → Except String α) :
    (left run : Nat) → Outcome α
  | left, run => match attempt run, left with
    | .ok value, _ => ⟨.ok value, run + 1, run * p.pause⟩
    | .error reason, 0 => ⟨.error (failure address (run + 1) reason), run + 1, run * p.pause⟩
    | .error _, left + 1 => retry p address attempt left (run + 1)
  termination_by left => left

/-- Tries `attempt 0`, `attempt 1`, … until one succeeds, as often as the policy allows. -/
def run {α : Type} (p : RetryPolicy) (address : String) (attempt : Nat → Except String α) :
    Outcome α :=
  retry p address attempt (p.attempts - 1) 0

end RetryPolicy

/-! ## Handshake -/

/-- What a client says first. -/
def greeting : ClientMessage := .hello protocolVersion

/-- The backend of the server, if it greets back in the same version. -/
def backendOfGreeting : ServerMessage → Except HandshakeFault String
  | .hello version backend =>
    if version = protocolVersion then .ok backend else .error (.otherVersion version)
  | .error message => .error (.refused message)
  | other => .error (.notHello other.kind)

end EncryptedInference
