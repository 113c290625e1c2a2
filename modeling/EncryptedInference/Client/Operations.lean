import EncryptedInference.Client.Basic
/-!
# Operations of a client

Each operation takes a client and gives its outcome and the client after it. An operation that is
refused sends nothing; a channel that fails, or a deadline that strikes while an answer is awaited,
ends the session.
-/

namespace EncryptedInference

/-- A client, together with the time and with what went over its channels, the latest first. The
operations of a client act on all three. -/
structure TimedClient (σ : Type) where
  client : Client σ
  clock : Nat
  log : List Event

/-- A time at which waiting ends, and what it ends with. -/
structure Deadline where
  time : Nat
  reason : ClientError

namespace Deadline

/-- The deadline strikes before the given time. -/
def strikesBefore (deadline : Option Deadline) (time : Nat) : Option Deadline :=
  deadline.filter fun d => d.time < time

/-- The earlier of two deadlines. -/
def earlier : Option Deadline → Option Deadline → Option Deadline
  | some a, some b => if b.time < a.time then some b else some a
  | some a, none => some a
  | none, b => b

end Deadline

namespace TimedClient

variable {σ α : Type}

/-- A client at the beginning. -/
def initial : TimedClient σ := ⟨.idle, 0, []⟩

/-- The session is gone, and with it its channel. -/
def abandon (s : TimedClient σ) : TimedClient σ := { s with client := .idle }

/-- What has happened on the channels, in order. -/
def trace (s : TimedClient σ) : List Event := s.log.reverse

/-- Something happens on a channel. -/
def record (s : TimedClient σ) (e : Event) : TimedClient σ := { s with log := e :: s.log }

@[simp] theorem trace_record (s : TimedClient σ) (e : Event) :
    (s.record e).trace = s.trace ++ [e] := by
  simp [trace, record]

/-- So many milliseconds pass in which nothing happens. -/
def pass (s : TimedClient σ) (milliseconds : Nat) : TimedClient σ :=
  { s with clock := s.clock + milliseconds }

/-- The user of the client sleeps. -/
def sleep (s : TimedClient σ) (milliseconds : Nat) : TimedClient σ :=
  s.pass (sleepLength milliseconds)

/-- Gives a message to the channel of a session, awaits the answer, and lets `after` say what the
reply means. -/
def exchange (t : Transport σ) (deadline : Option Deadline) (s : TimedClient σ)
    (session : Session σ) (m : ClientMessage)
    (after : ServerMessage → Except ClientError α × Phase) :
    Except ClientError α × TimedClient σ :=
  let (answer, channel) := t.call session.channel m
  let s := s.record (.sent s.clock m)
  let arrival := s.clock + answer.delay
  match Deadline.strikesBefore deadline arrival with
  | some d => (.error d.reason, { s.abandon with clock := max s.clock d.time })
  | none =>
    let s := (s.pass answer.delay).record (.answered arrival answer.outcome)
    match answer.outcome with
    | .error e => (.error (.connection e), s.abandon)
    | .ok reply =>
      let (result, phase) := after reply
      (result, { s with client := .live { session with channel, phase } })

/-- The session with a request in flight, and the request. -/
def inFlight (s : TimedClient σ) (operation : String) : Except ClientError (Session σ × String) :=
  match s.client with
  | .idle => .error .notConnected
  | .live session => match session.phase.requestId? with
    | some id => .ok (session, id)
    | none => .error (.invalidState operation session.phase.state)

/-- Takes over a channel and greets the server. -/
def attach (t : Transport σ) (channel : σ) (s : TimedClient σ) :
    Except ClientError Unit × TimedClient σ :=
  match s.client with
  | .live session => (.error (.invalidState "attach" session.phase.state), s)
  | .idle =>
    let (answer, channel) := t.call channel greeting
    let s := (s.record .opened).record (.sent s.clock greeting)
    let s := (s.pass answer.delay).record (.answered (s.clock + answer.delay) answer.outcome)
    match answer.outcome with
    | .error e => (.error (.connection e), s)
    | .ok reply => match backendOfGreeting reply with
      | .error fault => (.error (.connection (.handshake fault)), s)
      | .ok backend => (.ok (), { s with client := .live ⟨channel, backend, .connected⟩ })

/-- Makes a connection, trying as often as the policy says, and greets the server. -/
def connect (t : Transport σ) (policy : RetryPolicy) (address : String)
    (dial : Nat → Except String σ) (s : TimedClient σ) : Except ClientError Unit × TimedClient σ :=
  match s.client with
  | .live session => (.error (.invalidState "connect" session.phase.state), s)
  | .idle =>
    let outcome := policy.run address dial
    let s := s.pass outcome.slept
    match outcome.result with
    | .error e => (.error (.connection e), s)
    | .ok channel => attach t channel s

/-- Submits a request; the outcome is the name that the server gives it. -/
def send (t : Transport σ) (request : Request) (s : TimedClient σ) :
    Except ClientError String × TimedClient σ :=
  match s.client with
  | .idle => (.error .notConnected, s)
  | .live session =>
    if session.phase.requestId?.isSome then (.error .requestInFlight, s)
    else match request.validate with
      | .error e => (.error (.request e), s)
      | .ok () => exchange t none s session (.execute request) session.phase.afterExecute

/-- Asks how far the request is, unless it is known to be completed. -/
def pollBefore (t : Transport σ) (deadline : Option Deadline) (s : TimedClient σ) :
    Except ClientError PollStatus × TimedClient σ :=
  match s.inFlight "poll" with
  | .error e => (.error e, s)
  | .ok (session, id) =>
    if session.phase.isCompleted then (.ok .completed, s)
    else exchange t deadline s session (.status id) (session.phase.afterStatus id)

/-- Asks how far the request is. -/
def poll (t : Transport σ) (s : TimedClient σ) : Except ClientError PollStatus × TimedClient σ :=
  pollBefore t none s

/-- Fetches the result of a request that is known to be completed. -/
def getResults (t : Transport σ) (s : TimedClient σ) :
    Except ClientError InferenceResult × TimedClient σ :=
  match s.inFlight "get_results" with
  | .error e => (.error e, s)
  | .ok (session, id) =>
    if session.phase.isCompleted then
      exchange t none s session (.fetchResult id) session.phase.afterFetch
    else (.error (.invalidState "get_results" session.phase.state), s)

/-- Says goodbye and drops the session, whether or not the goodbye gets through. -/
def close (t : Transport σ) (s : TimedClient σ) : Except ClientError Unit × TimedClient σ :=
  match s.client with
  | .idle => (.ok (), s)
  | .live session =>
    let outcome := (t.notify session.channel .goodbye).1
    (outcome.mapError .connection, (s.record (.sent s.clock .goodbye)).abandon)

end TimedClient

end EncryptedInference
