import EncryptedInference.Client.Wait
/-!
# A client in five fields

A client can also be kept in five fields that are written one by one: the channel, the state, the
name of the request, whether the request is completed, and the backend. Nothing in their types keeps
the fields together; that is left to the operations. They are the same operations, said field by
field.
-/

namespace EncryptedInference

/-- The fields of a client. -/
structure ClientFields (σ : Type) where
  channel? : Option σ
  state : ClientState
  requestId? : Option String
  isCompleted : Bool
  backend? : Option String

namespace ClientFields

variable {σ : Type}

/-- The client at the beginning: every field is empty. -/
def cleared : ClientFields σ := ⟨none, .idle, none, false, none⟩

/-- The request is over; the channel stays. -/
def finish (c : ClientFields σ) : ClientFields σ :=
  { c with requestId? := none, isCompleted := false, state := .done }

/-- The channel is gone, and all that goes with it. -/
def abandon (c : ClientFields σ) : ClientFields σ :=
  { c with channel? := none, requestId? := none, isCompleted := false, backend? := none,
           state := .idle }

/-- The request in flight. -/
def inFlight (c : ClientFields σ) (operation : String) : Except ClientError String :=
  match c.state, c.requestId? with
  | .idle, _ => .error .notConnected
  | .sent, some id | .polling, some id => .ok id
  | state, _ => .error (.invalidState operation state)

end ClientFields

/-- A client in fields, together with the time and with what went over its channels, as
`TimedClient` has them. -/
structure TimedFields (σ : Type) where
  client : ClientFields σ
  clock : Nat
  log : List Event

namespace TimedFields

variable {σ α β : Type}

/-- A client at the beginning. -/
def initial : TimedFields σ := ⟨.cleared, 0, []⟩

/-- Fields of the client are written. -/
def put (d : TimedFields σ) (f : ClientFields σ → ClientFields σ) : TimedFields σ :=
  { d with client := f d.client }

/-- Something happens on a channel. -/
def record (d : TimedFields σ) (e : Event) : TimedFields σ := { d with log := e :: d.log }

/-- So many milliseconds pass in which nothing happens. -/
def pass (d : TimedFields σ) (milliseconds : Nat) : TimedFields σ :=
  { d with clock := d.clock + milliseconds }

/-- The client is abandoned when a deadline strikes. -/
def strike (d : TimedFields σ) (deadline : Deadline) : TimedFields σ :=
  { d.put .abandon with clock := max d.clock deadline.time }

/-- Goes on after a success; an error ends the operation. -/
def andThen (r : Except ClientError α × TimedFields σ)
    (next : α → TimedFields σ → Except ClientError β × TimedFields σ) :
    Except ClientError β × TimedFields σ :=
  match r with
  | (.error e, d) => (.error e, d)
  | (.ok a, d) => next a d

/-- Gives a message to the channel and awaits the reply. A channel that fails is dropped, and so is
one whose reply is still awaited when the deadline strikes. -/
def call (t : Transport σ) (deadline : Option Deadline) (m : ClientMessage) (d : TimedFields σ) :
    Except ClientError ServerMessage × TimedFields σ :=
  match d.client.channel? with
  | none => (.error .notConnected, d)
  | some channel =>
    let (answer, channel) := t.call channel m
    let d := d.record (.sent d.clock m)
    let arrival := d.clock + answer.delay
    match Deadline.strikesBefore deadline arrival with
    | some struck => (.error struck.reason, d.strike struck)
    | none =>
      let d := ((d.pass answer.delay).record (.answered arrival answer.outcome)).put fun c =>
        { c with channel? := some channel }
      match answer.outcome with
      | .error e => (.error (.connection e), d.put .abandon)
      | .ok reply => (.ok reply, d)

/-- Takes over a channel and greets the server. -/
def attach (t : Transport σ) (channel : σ) (d : TimedFields σ) :
    Except ClientError Unit × TimedFields σ :=
  if d.client.state = .idle then
    let (answer, channel) := t.call channel greeting
    let d := (d.record .opened).record (.sent d.clock greeting)
    let d := (d.pass answer.delay).record (.answered (d.clock + answer.delay) answer.outcome)
    match answer.outcome with
    | .error e => (.error (.connection e), d)
    | .ok reply => match backendOfGreeting reply with
      | .error fault => (.error (.connection (.handshake fault)), d)
      | .ok backend => (.ok (), d.put fun c =>
          { c with channel? := some channel, backend? := some backend, state := .connected })
  else (.error (.invalidState "attach" d.client.state), d)

/-- Makes a connection, trying as often as the policy says, and greets the server. -/
def connect (t : Transport σ) (policy : RetryPolicy) (address : String)
    (dial : Nat → Except String σ) (d : TimedFields σ) : Except ClientError Unit × TimedFields σ :=
  if d.client.state = .idle then
    let outcome := policy.run address dial
    let d := d.pass outcome.slept
    match outcome.result with
    | .error e => (.error (.connection e), d)
    | .ok channel => d.attach t channel
  else (.error (.invalidState "connect" d.client.state), d)

/-- What the reply to a request means. -/
def readExecute (reply : ServerMessage) (d : TimedFields σ) :
    Except ClientError String × TimedFields σ :=
  match reply with
  | .accepted id => (.ok id, d.put fun c =>
      { c with requestId? := some id, isCompleted := false, state := .sent })
  | .error message => (.error (.remote message), d)
  | other => (.error (.unexpectedResponse "accepted" other.kind), d)

/-- What the reply to the question for the state of the request means. -/
def readStatus (reply : ServerMessage) (d : TimedFields σ) :
    Except ClientError PollStatus × TimedFields σ :=
  match reply with
  | .status _ .completed _ => (.ok .completed, d.put fun c =>
      { c with isCompleted := true, state := .polling })
  | .status _ .failed reason =>
    (.error (.remote (reason.getD "request failed")), d.put .finish)
  | .status _ _ _ => (.ok .pending, d.put fun c => { c with state := .polling })
  | .error message => (.error (.remote message), d.put .finish)
  | other => (.error (.unexpectedResponse "status" other.kind), d)

/-- What the reply to the question for the result means. -/
def readFetch (reply : ServerMessage) (d : TimedFields σ) :
    Except ClientError InferenceResult × TimedFields σ :=
  match reply with
  | .result r => (.ok r, d.put .finish)
  | .error message => (.error (.remote message), d.put .finish)
  | other => (.error (.unexpectedResponse "result" other.kind), d)

/-- Submits a request; the outcome is the name that the server gives it. -/
def send (t : Transport σ) (request : Request) (d : TimedFields σ) :
    Except ClientError String × TimedFields σ :=
  match d.client.state with
  | .idle => (.error .notConnected, d)
  | .sent | .polling => (.error .requestInFlight, d)
  | .connected | .done => match request.validate with
    | .error e => (.error (.request e), d)
    | .ok () => andThen (d.call t none (.execute request)) readExecute

/-- Asks how far the request is, unless it is known to be completed. -/
def pollBefore (t : Transport σ) (deadline : Option Deadline) (d : TimedFields σ) :
    Except ClientError PollStatus × TimedFields σ :=
  match d.client.inFlight "poll" with
  | .error e => (.error e, d)
  | .ok id =>
    if d.client.isCompleted then (.ok .completed, d)
    else andThen (d.call t deadline (.status id)) readStatus

/-- Asks how far the request is. -/
def poll (t : Transport σ) (d : TimedFields σ) : Except ClientError PollStatus × TimedFields σ :=
  d.pollBefore t none

/-- Fetches the result of a request that is known to be completed. -/
def getResults (t : Transport σ) (d : TimedFields σ) :
    Except ClientError InferenceResult × TimedFields σ :=
  match d.client.inFlight "get_results" with
  | .error e => (.error e, d)
  | .ok id =>
    if d.client.isCompleted then andThen (d.call t none (.fetchResult id)) readFetch
    else (.error (.invalidState "get_results" d.client.state), d)

/-- Says goodbye and drops the channel, whether or not the goodbye gets through. -/
def close (t : Transport σ) (d : TimedFields σ) : Except ClientError Unit × TimedFields σ :=
  match d.client.channel? with
  | none => (.ok (), d.put .abandon)
  | some channel =>
    let outcome := (t.notify channel .goodbye).1
    (outcome.mapError .connection, (d.record (.sent d.clock .goodbye)).put .abandon)

/-- Asks at `due`, or at once if that is over, and so on, followed for so many polls. -/
def waitFrom (t : Transport σ) (interval : Nat) (deadline : Option Deadline) :
    (polls due : Nat) → TimedFields σ → Progress Unit × TimedFields σ
  | 0, _, d => (.ongoing, d)
  | polls + 1, due, d =>
    let time := max due d.clock
    match Deadline.strikesBefore deadline time with
    | some struck => (.returned (.error struck.reason), d.strike struck)
    | none => match pollBefore t deadline { d with clock := time } with
      | (.error e, d) => (.returned (.error e), d)
      | (.ok .completed, d) => (.returned (.ok ()), d)
      | (.ok .pending, d) => waitFrom t interval deadline polls (nextDue interval due time) d

/-- Waits until the request is completed, the time of the policy is over, or `cancel` milliseconds
have passed. -/
def wait (t : Transport σ) (polls : Nat) (policy : PollPolicy) (cancel : Option Nat)
    (d : TimedFields σ) : Progress Unit × TimedFields σ :=
  match d.client.inFlight "wait_for_completion" with
  | .error e => (.returned (.error e), d)
  | .ok _ =>
    let timeout := policy.timeout.map fun ms => ⟨d.clock + sleepLength ms, .timeout ms⟩
    let cancelled := cancel.map fun ms => ⟨d.clock + sleepLength ms, .cancelled⟩
    if policy.interval = 0 then (.panicked, d)
    else waitFrom t policy.interval (Deadline.earlier timeout cancelled) polls d.clock d

/-- Submits a request, waits for it and fetches its result. -/
def run (t : Transport σ) (polls : Nat) (policy : PollPolicy) (request : Request)
    (d : TimedFields σ) : Progress InferenceResult × TimedFields σ :=
  match d.send t request with
  | (.error e, d) => (.returned (.error e), d)
  | (.ok _, d) => match d.wait t polls policy none with
    | (.returned (.error e), d) => (.returned (.error e), d)
    | (.returned (.ok ()), d) => Prod.map .returned id (d.getResults t)
    | (.panicked, d) => (.panicked, d)
    | (.ongoing, d) => (.ongoing, d)

end TimedFields

end EncryptedInference
