import EncryptedInference.Client.Script
import EncryptedInference.CommandLine.Run
import EncryptedInference.Host.Link
import Std.Async.DNS
import Std.Async.TCP
import Std.Async.Timer
/-!
# The program

The client as a program. What it says to the server is decided by `consult`, which is given the
answers that have come so far; the loop here transmits the next message when its time has come and
adds the answer.
-/

namespace EncryptedInference.CommandLine

open Std.Async Std.Net

/-! ## The system -/

/-- The number of a system error, which may come with a minus sign. -/
def systemCode (code : UInt32) : Nat :=
  if code.toNat < 0x80000000 then code.toNat else 0x100000000 - code.toNat

/-- Why the system refused, in its own words. -/
def systemReason (e : IO.Error) : String :=
  match e with
  | .otherError code details | .resourceVanished code details | .timeExpired code details
  | .unsatisfiedConstraints code details | .resourceBusy code details
  | .noSuchThing _ code details =>
    details.capitalize ++ " (os error " ++ toString (systemCode code) ++ ")"
  | e => toString e

/-- The text of a file. -/
def readFile (path : String) : IO (Except ReadError String) := do
  try
    let bytes ← IO.FS.readBinFile path
    return match textOfBytes? bytes.toList with
      | some text => .ok text
      | none => .error .notText
  catch e => return .error <| match e with
    | .noFileOrDirectory .. => .notFound
    | .inappropriateType .. => .isDirectory
    | e => .other (systemReason e)

/-- Reads the files that a run may ask for. -/
def readFiles (paths : List String) : IO FileSystem := do
  let files ← paths.mapM fun path => do return (path, ← readFile path)
  return fun path => (files.lookup path).getD (.error .notFound)

/-- The variables that the client knows. -/
def knownVariables : List String :=
  ["HE_BACKEND", "HE_SEAL_CONFIG", "HE_ENABLE_CLIENT", "HE_ENCRYPT_DATA", "HE_BATCH_DATA",
   "HE_COMPLEX_PACK"]

def readEnvironment : IO (String → Option String) := do
  let values ← knownVariables.mapM fun name => do return (name, ← IO.getEnv name)
  return fun name => (values.lookup name).join

/-- The paths in the options and the environment. -/
def pathsOf (environment : String → Option String) (o : Options) : List String :=
  let sources := o.encryptionParameters.toList ++ (environment "HE_SEAL_CONFIG").toList
  o.input :: o.labels.toList ++ sources.filterMap fun s => match ParameterSource.ofText s with
    | .file path => some path
    | _ => none

/-! ## Connections -/

/-- Sleeps for so many milliseconds, or for as long as can be asked for at once. -/
def pause (milliseconds : Nat) : IO Unit := IO.sleep (min milliseconds 0xFFFFFFFF).toUInt32

/-- Connects to the first of the addresses that answers. -/
def dialAddresses (port : UInt16) : List IPAddr → IO.Error → IO TCP.Socket.Client
  | [], e => throw e
  | address :: rest, _ => do
    let target : SocketAddress := match address with
      | .v4 address => .v4 ⟨address, port⟩
      | .v6 address => .v6 ⟨address, port⟩
    try
      let socket ← TCP.Socket.Client.mk
      (socket.connect target).block
      socket.noDelay
      return socket
    catch e => dialAddresses port rest e

/-- Connects to a server. -/
def dialServer (o : Options) : IO TCP.Socket.Client := do
  let addresses ← (DNS.getAddrInfo o.hostname (toString o.port)).block
  dialAddresses o.port.toUInt16 addresses.toList
    (.userError "could not resolve to any addresses")

/-- Makes so many attempts to connect: what became of them, and the connection at last. -/
def dialUpTo (o : Options) :
    (attempts : Nat) → IO (List (Except String Unit) × Option TCP.Socket.Client)
  | 0 => return ([], none)
  | left + 1 => do
    try
      let socket ← dialServer o
      return ([.ok ()], some socket)
    catch e =>
      if left ≠ 0 then pause o.retryBackoff
      let (attempts, socket) ← dialUpTo o left
      return (.error (systemReason e) :: attempts, socket)

/-- The next bytes of a stream, `none` at its end; past `limit` the stream counts as ended. -/
def receiveBytes (socket : TCP.Socket.Client) (limit : Option Nat) : IO (Option ByteArray) := do
  let size : UInt64 := 0x100000
  match limit with
  | none => (socket.recv? size).block
  | some limit =>
    let left := limit + 1 - (← IO.monoMsNow)
    let alarm ← (Selector.sleep (.ofNat left)).block
    (Selectable.one #[.case (socket.recvSelector size) pure, .case alarm fun _ => pure none]).block

/-- Reads bytes until they hold a frame, or the stream ends. -/
partial def receiveReply (socket : TCP.Socket.Client) (limit : Option Nat) (bytes : List UInt8) :
    IO (Except ConnectionError ServerMessage) := do
  let reply := (Link.receive ServerMessage.ofJson? bytes).mapError ConnectionError.ofFrameError
  match Frame.split bytes with
  | .frame .. | .tooLarge _ => return reply
  | .closed | .bodyEnded .. => match ← receiveBytes socket limit with
    | some more => receiveReply socket limit (bytes ++ more.toList)
    | none => return reply

/-- Transmits a message and awaits the reply, but no longer than until `limit`. A goodbye has no
reply. -/
def exchangeOn (socket : TCP.Socket.Client) (limit : Option Nat) (m : ClientMessage) :
    IO (Except ConnectionError ServerMessage) := do
  match Frame.encode m.body with
  | .error e => return .error (.ofFrameError e)
  | .ok bytes => try
      (socket.send ⟨bytes.toArray⟩).block
      if m = .goodbye then return .error .closed else receiveReply socket limit []
    catch _ => return .error .closed

/-! ## Conversations -/

/-- The messages of a trace, each with its time. -/
def messagesOf (trace : List Event) : List (Nat × ClientMessage) :=
  trace.filterMap fun e => match e with
    | .sent time m => some (time, m)
    | _ => none

/-- When waiting for a request is over, once it is accepted. -/
def patience (o : Options) (trace : List Event) : Option Nat :=
  trace.findSome? fun e => match e with
    | .answered time (.ok (.accepted _)) => o.pollPolicy.timeout.map (time + sleepLength ·)
    | _ => none

def sleepUntil (time : Nat) : IO Unit := do
  pause (time - (← IO.monoMsNow))

/-- Follows the conversation of a client on a connection from the answers so far to its end. -/
partial def converse (socket : TCP.Socket.Client) (o : Options) (request : Request)
    (dial : Nat → Except String Unit) (start : Nat) (answers : List Answer) :
    IO (Progress InferenceResult) := do
  let script : Script := ⟨answers, none, true⟩
  let surroundings : Surroundings Script :=
    ⟨fun _ => .error .notFound, fun _ => none, fun i => (dial i).map fun _ => script,
      Script.transport, answers.length + 2⟩
  let (outcome, s) := consult surroundings o request .initial
  match (messagesOf s.trace)[answers.length]? with
  | none =>
    sleepUntil (start + s.clock)
    return outcome
  | some (time, m) =>
    sleepUntil (start + time)
    let limit := match m with
      | .status _ => (patience o s.trace).map (start + ·)
      | _ => none
    let answer ← exchangeOn socket limit m
    if m = .goodbye then return outcome
    let now ← IO.monoMsNow
    converse socket o request dial start (answers ++ [⟨now - (start + time), answer⟩])

/-- Has a server compute the result of a request. -/
def consultServer (o : Options) (request : Request) : IO (Progress InferenceResult) := do
  let (attempts, socket) ← dialUpTo o o.retryPolicy.attempts
  let dial (i : Nat) : Except String Unit := attempts.getD i (.ok ())
  match socket with
  | some socket =>
    let now ← IO.monoMsNow
    converse socket o request dial (now - (attempts.length - 1) * o.retryPolicy.pause) []
  | none =>
    let surroundings : Surroundings Script :=
      ⟨fun _ => .error .notFound, fun _ => none, fun i => (dial i).map fun _ => ⟨[], none, true⟩,
        Script.transport, 0⟩
    return (consult surroundings o request .initial).1

/-- How the program ends for the given arguments. -/
def endingOf (args : List String) : IO (Option Ending) := do
  match Options.ofArguments args with
  | .error e => return some (.refused e)
  | .ok o =>
    let environment ← readEnvironment
    let files ← readFiles (pathsOf environment o)
    match prepare files environment o with
    | .error e => return some (.ofError e)
    | .ok p => return endingAfter o p (← consultServer o p.request)

end EncryptedInference.CommandLine

open EncryptedInference.CommandLine in
def main (args : List String) : IO UInt32 := do
  -- The polls of the program are followed one after the other, so it ends.
  let ending := (← endingOf args).getD .brokenOff
  IO.print ending.output
  if let some complaint := ending.complaint? then IO.eprintln complaint
  return ending.code.toUInt32
