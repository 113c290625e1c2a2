import EncryptedInference.Host.Server
/-!
# A server in records

A server can also be kept as its table is written: a record of three fields for each job, which
nothing in their types keeps together, and beside the table the tasks, each with the name and the
request that it was handed. A task writes twice to the record of its job, when it begins and when
its computation has ended, and finds it gone if it has been collected or dropped. The operations are
those of a server, said field by field.
-/

namespace EncryptedInference

/-- The record of a job. -/
structure JobRecord where
  state : JobState
  error? : Option String
  outputs? : Option (NameMap SlotVector)

namespace JobRecord

/-- The record of a request that has just been accepted. -/
def fresh : JobRecord := ⟨.queued, none, none⟩

/-- What a task writes when it begins. -/
def start (j : JobRecord) : JobRecord := { j with state := .running }

/-- What a task writes at its end. -/
def finish (result : Except String (NameMap SlotVector)) (j : JobRecord) : JobRecord :=
  match result with
  | .ok outputs => { j with state := .completed, outputs? := some outputs }
  | .error reason => { j with state := .failed, error? := some reason }

/-- What is handed out for a job that has come to its end. -/
def handOut (id : String) (j : JobRecord) : ServerMessage :=
  match j.outputs? with
  | some outputs =>
    if j.state = .completed then .result ⟨id, outputs⟩
    else .error (j.error?.getD "unknown error")
  | none => .error (j.error?.getD "unknown error")

end JobRecord

/-- How far a task has come. -/
inductive TaskStage
  | waiting
  | computing
  | over
  deriving DecidableEq

/-- The task of a request. -/
structure JobTask where
  id : String
  request : Request
  stage : TaskStage

/-- The records of the jobs, and the tasks of all requests that were accepted, in that order. -/
structure Registry where
  records : NameMap JobRecord
  tasks : List JobTask

namespace Registry

/-- A server without jobs. -/
def initial : Registry := ⟨.empty, []⟩

/-! ## Answers -/

/-- Takes on a request: it gets a record and a task. -/
def submit (host : Host) (g : Registry) (r : Request) : Except SubmitError String × Registry :=
  match checkRequest host.files r with
  | .error e => (.error e, g)
  | .ok () =>
    let name := host.requestName g.tasks.length
    (.ok name, ⟨g.records.insert name .fresh, g.tasks ++ [⟨name, r, .waiting⟩]⟩)

/-- Tells the state of a job. A record of a failure is gone once that is told. -/
def status (g : Registry) (id : String) : ServerMessage × Registry :=
  match g.records.get? id with
  | none => (Server.notFound id, g)
  | some j =>
    (.status id j.state j.error?,
      if j.state = .failed then { g with records := g.records.erase id } else g)

/-- Hands out what a job has come to, and removes its record, unless it is too early for that. -/
def fetch (g : Registry) (id : String) : ServerMessage × Registry :=
  match g.records.get? id with
  | none => (Server.notFound id, g)
  | some j =>
    if j.state.isTerminal then (j.handOut id, { g with records := g.records.erase id })
    else (.error ("request '" ++ id ++ "' is still " ++ j.state.toText), g)

/-- Answers a message. A goodbye has no answer. -/
def handle (host : Host) (g : Registry) : ClientMessage → Option ServerMessage × Registry
  | .hello _ => (some (.hello protocolVersion host.engine.backend), g)
  | .execute r => match g.submit host r with
    | (.ok id, g) => (some (.accepted id), g)
    | (.error e, g) => (some (.error e.message), g)
  | .status id => let (reply, g) := g.status id; (some reply, g)
  | .fetchResult id => let (reply, g) := g.fetch id; (some reply, g)
  | .goodbye => (none, g)

/-- The records of the given jobs are dropped. -/
def evict (g : Registry) (ids : List String) : Registry :=
  { g with records := ids.foldl NameMap.erase g.records }

/-! ## Tasks -/

/-- A task writes to the record of its job, if that is still there, and goes on to a stage. -/
def write (g : Registry) (k : Nat) (t : JobTask) (f : JobRecord → JobRecord)
    (stage : TaskStage) : Registry where
  records := match g.records.get? t.id with
    | some j => g.records.insert t.id (f j)
    | none => g.records
  tasks := g.tasks.set k { t with stage }

/-- The task of request number `k` begins, if it has not yet. -/
def start (g : Registry) (k : Nat) : Registry :=
  match g.tasks[k]? with
  | some t => if t.stage = .waiting then g.write k t .start .computing else g
  | none => g

/-- The computation of the task of request number `k` ends, if it is under way. It runs in a task of
its own, with the given number. -/
def finish (engine : Engine) (g : Registry) (k task : Nat) : Registry :=
  match g.tasks[k]? with
  | some t =>
    if t.stage = .computing then
      g.write k t (.finish ((engine.evaluate t.request).result task)) .over
    else g
  | none => g

end Registry

end EncryptedInference
