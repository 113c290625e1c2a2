import EncryptedInference.Exchange.Connection
/-!
# Clients

A client is idle, or holds a session: an open channel, the name of the backend behind it, and how
far the one request of the session has come. The operations of a client act on it together with the
time in milliseconds and a trace of what went over its channels; what a channel answers, and how
long it takes, is given by a transport.
-/

namespace EncryptedInference

/-- How far a client has come. -/
inductive ClientState
  | idle
  | connected
  | sent
  | polling
  | done
  deriving DecidableEq

namespace ClientState

def toText : ClientState → String
  | idle => "idle"
  | connected => "connected"
  | sent => "sent"
  | polling => "polling"
  | done => "done"

end ClientState

/-- Why an operation of a client fails. -/
inductive ClientError
  | connection (error : ConnectionError)
  | request (error : RequestError)
  | notConnected
  | requestInFlight
  | invalidState (operation : String) (state : ClientState)
  | remote (message : String)
  | unexpectedResponse (expected got : String)
  | timeout (milliseconds : Nat)
  | cancelled
  deriving DecidableEq

namespace ClientError

def message : ClientError → String
  | connection e => e.message
  | request e => "invalid request: " ++ e.message
  | notConnected => "client is not connected"
  | requestInFlight => "a request is already in flight"
  | invalidState operation state => operation ++ " is not valid in state " ++ state.toText
  | remote message => "server reported failure: " ++ message
  | unexpectedResponse expected got => "expected " ++ expected ++ " reply, got " ++ got
  | timeout ms => "request did not complete within " ++ durationText ms
  | cancelled => "wait cancelled"

end ClientError

/-! ## Channels -/

/-- What comes back for a message: after a delay in milliseconds a reply, or a failure. -/
structure Answer where
  delay : Nat
  outcome : Except ConnectionError ServerMessage

/-- How channels behave: what they answer to a message, and what becomes of a message to which no
answer is awaited. -/
structure Transport (σ : Type) where
  call : σ → ClientMessage → Answer × σ
  notify : σ → ClientMessage → Except ConnectionError Unit × σ

/-- Something that happened on a channel. -/
inductive Event
  /-- A new channel is used from here on. -/
  | opened
  | sent (time : Nat) (message : ClientMessage)
  | answered (time : Nat) (outcome : Except ConnectionError ServerMessage)

/-! ## Sessions -/

/-- How far the request of a session has come. -/
inductive Phase
  | connected
  | sent (requestId : String)
  | polling (requestId : String) (completed : Bool)
  | done
  deriving DecidableEq

namespace Phase

def state : Phase → ClientState
  | connected => .connected
  | sent _ => .sent
  | polling _ _ => .polling
  | done => .done

/-- The request in flight. -/
def requestId? : Phase → Option String
  | sent id | polling id _ => some id
  | connected | done => none

/-- The server has said that the request in flight is completed. -/
def isCompleted : Phase → Bool
  | polling _ completed => completed
  | _ => false

end Phase

/-- An open channel, the backend at its other end, and the state of the request. -/
structure Session (σ : Type) where
  channel : σ
  backend : String
  phase : Phase

/-- A client: without or with a session. -/
inductive Client (σ : Type)
  | idle
  | live (session : Session σ)

namespace Client

variable {σ : Type}

def state : Client σ → ClientState
  | idle => .idle
  | live session => session.phase.state

def channel? : Client σ → Option σ
  | idle => none
  | live session => some session.channel

def backend? : Client σ → Option String
  | idle => none
  | live session => some session.backend

def requestId? : Client σ → Option String
  | idle => none
  | live session => session.phase.requestId?

def isCompleted : Client σ → Bool
  | idle => false
  | live session => session.phase.isCompleted

end Client

/-- The outcome of asking for the state of a request. -/
inductive PollStatus
  | pending
  | completed
  deriving DecidableEq

/-! ## Replies -/

namespace Phase

/-- What the reply to a request means. -/
def afterExecute (p : Phase) : ServerMessage → Except ClientError String × Phase
  | .accepted id => (.ok id, sent id)
  | .error message => (.error (.remote message), p)
  | other => (.error (.unexpectedResponse "accepted" other.kind), p)

/-- What the reply to the question for the state of request `id` means. -/
def afterStatus (p : Phase) (id : String) : ServerMessage → Except ClientError PollStatus × Phase
  | .status _ .completed _ => (.ok .completed, polling id true)
  | .status _ .failed reason => (.error (.remote (reason.getD "request failed")), done)
  | .status _ _ _ => (.ok .pending, polling id false)
  | .error message => (.error (.remote message), done)
  | other => (.error (.unexpectedResponse "status" other.kind), p)

/-- What the reply to the question for the result means. -/
def afterFetch (p : Phase) : ServerMessage → Except ClientError InferenceResult × Phase
  | .result r => (.ok r, done)
  | .error message => (.error (.remote message), done)
  | other => (.error (.unexpectedResponse "result" other.kind), p)

end Phase

end EncryptedInference
