import EncryptedInference.Exchange.Message
import EncryptedInference.Text.Visible
/-!
# The engine host

A server keeps a table of jobs. A request that is accepted becomes a queued job under a new name;
its task starts it and ends it with what the engine makes of the request. A completed job leaves the
table with its result, a failed one when its failure has been told. A task that ends after its job
has left the table changes nothing.
-/

namespace EncryptedInference

/-- What an engine makes of a request. A panic comes with a message, or with something else. -/
inductive EngineOutcome
  | outputs (outputs : NameMap SlotVector)
  | unsupported (reason : String)
  | failed (reason : String)
  | panicked (message : Option String)

/-- The computation behind a server. -/
structure Engine where
  backend : String
  evaluate : Request → EngineOutcome

namespace Engine

/-- Gives every tensor back. -/
def echo : Engine := ⟨"echo", fun r => .outputs r.tensors⟩

end Engine

/-- A job: what it has to do, or what has become of it. -/
inductive Job
  | queued (request : Request)
  | running (request : Request)
  | completed (outputs : NameMap SlotVector)
  | failed (reason : String)

namespace Job

def state : Job → JobState
  | queued _ => .queued
  | running _ => .running
  | completed _ => .completed
  | failed _ => .failed

/-- What is told about the failure of a job. -/
def error? : Job → Option String
  | failed reason => some reason
  | _ => none

def outputs? : Job → Option (NameMap SlotVector)
  | completed outputs => some outputs
  | _ => none

/-- The first output that no document can hold, and the slot that is to blame. -/
def nonFiniteOutput? (outputs : NameMap SlotVector) : Option (String × Nat) :=
  outputs.entries.findSome? fun (name, slots) => slots.firstNonFinite?.map fun i => (name, i)

end Job

/-- What is told about a panic in a task. The number of the task is drawn by the process in which
the server runs, where other things draw numbers, too. -/
def panicText (task : Nat) (message : Option String) : String :=
  "engine task panicked: task " ++ toString task ++ " panicked" ++ match message with
    | some message => " with message " ++ Text.quoted message
    | none => ""

/-- The result of a computation in a task: its outputs if a document can hold them, or else what is
to be told about the failure. -/
def EngineOutcome.result (task : Nat) : EngineOutcome → Except String (NameMap SlotVector)
  | outputs given => match Job.nonFiniteOutput? given with
    | some (name, i) =>
      .error ("evaluation failed: output '" ++ name ++ "' holds a non-finite value at slot " ++
        toString i)
    | none => .ok given
  | unsupported reason => .error ("unsupported request: " ++ reason)
  | failed reason => .error ("evaluation failed: " ++ reason)
  | panicked message => .error (panicText task message)

namespace Job

/-- The job after the computation in its task has ended. -/
def ofOutcome (task : Nat) (outcome : EngineOutcome) : Job :=
  match outcome.result task with
  | .ok outputs => completed outputs
  | .error reason => failed reason

/-- The task of a job begins. -/
def start : Job → Job
  | queued request => running request
  | job => job

/-- The task of a job ends. -/
def finish (engine : Engine) (task : Nat) : Job → Job
  | running request => ofOutcome task (engine.evaluate request)
  | job => job

end Job

/-- Why a request is not accepted. -/
inductive SubmitError
  | request (error : RequestError)
  | config (error : ConfigError)

namespace SubmitError

def message : SubmitError → String
  | request e => e.message
  | config e => e.message

end SubmitError

/-- The directive of a request that its parameter map contradicts. -/
def directiveError? (c : Config) (r : Request) : Option ConfigError :=
  r.directives.entries.findSome? fun (name, d) =>
    if c.directive name = d then none
    else some (.invalidEntry name d.toText (.mapSays (c.directive name)))

/-- Checks a request again: it has tensors, its parameter map stands for a configuration, and its
directives are those of the configuration. -/
def checkRequest (files : FileSystem) (r : Request) : Except SubmitError Unit := do
  r.validate.mapError .request
  let c ← (Config.ofParameterMap files r.parameters).mapError .config
  match directiveError? c r with
  | some e => .error (.config e)
  | none => .ok ()

/-- What a server is made of: its engine, its files, and the names that it gives to requests. -/
structure Host where
  engine : Engine
  files : FileSystem
  requestName : Nat → String

/-- The jobs of a server, and how many requests it has accepted. -/
structure Server where
  jobs : NameMap Job
  accepted : Nat

namespace Server

/-- A server without jobs. -/
def initial : Server := ⟨.empty, 0⟩

/-- Takes on a request. -/
def submit (host : Host) (s : Server) (r : Request) : Except SubmitError String × Server :=
  match checkRequest host.files r with
  | .error e => (.error e, s)
  | .ok () =>
    let name := host.requestName s.accepted
    (.ok name, ⟨s.jobs.insert name (.queued r), s.accepted + 1⟩)

/-- What is said about a request that is not in the table. -/
def notFound (id : String) : ServerMessage := .error ("request '" ++ id ++ "' not found")

/-- Tells the state of a job. A failed job is gone once that is told. -/
def status (s : Server) (id : String) : ServerMessage × Server :=
  match s.jobs.get? id with
  | none => (notFound id, s)
  | some job =>
    (.status id job.state job.error?,
      if job.state = .failed then { s with jobs := s.jobs.erase id } else s)

/-- Hands out the result of a job, or its failure. Either way the job is gone. -/
def fetch (s : Server) (id : String) : ServerMessage × Server :=
  match s.jobs.get? id with
  | none => (notFound id, s)
  | some job => match job with
    | .completed outputs => (.result ⟨id, outputs⟩, { s with jobs := s.jobs.erase id })
    | .failed reason => (.error reason, { s with jobs := s.jobs.erase id })
    | _ => (.error ("request '" ++ id ++ "' is still " ++ job.state.toText), s)

/-- Answers a message. A goodbye has no answer. -/
def handle (host : Host) (s : Server) : ClientMessage → Option ServerMessage × Server
  | .hello _ => (some (.hello protocolVersion host.engine.backend), s)
  | .execute r => match s.submit host r with
    | (.ok id, s) => (some (.accepted id), s)
    | (.error e, s) => (some (.error e.message), s)
  | .status id => let (reply, s) := s.status id; (some reply, s)
  | .fetchResult id => let (reply, s) := s.fetch id; (some reply, s)
  | .goodbye => (none, s)

/-! ## Tasks -/

/-- The task of a request takes a step, if its job is still in the table. -/
def updateJob (s : Server) (id : String) (f : Job → Job) : Server :=
  match s.jobs.get? id with
  | some job => { s with jobs := s.jobs.insert id (f job) }
  | none => s

def start (s : Server) (id : String) : Server := s.updateJob id Job.start

/-- The computation for a request, in the task of the given number, has ended. -/
def finish (host : Host) (s : Server) (id : String) (task : Nat) : Server :=
  s.updateJob id (Job.finish host.engine task)

/-- All queued jobs start. -/
def startAll (s : Server) : Server := { s with jobs := s.jobs.mapValues fun _ job => job.start }

/-- The jobs of the given requests are dropped. -/
def evict (s : Server) (ids : List String) : Server :=
  { s with jobs := ids.foldl NameMap.erase s.jobs }

end Server

end EncryptedInference
