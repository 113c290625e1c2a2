import EncryptedInference.Exchange.Request
/-!
# Messages

What client and server say to one another. A message is a record with its kind in the field `type`.
-/

namespace EncryptedInference

/-- The version of the protocol that both sides speak. -/
def protocolVersion : Nat := 1

/-- How far a job has come. -/
inductive JobState
  | queued
  | running
  | completed
  | failed
  deriving DecidableEq

namespace JobState

def toText : JobState → String
  | queued => "queued"
  | running => "running"
  | completed => "completed"
  | failed => "failed"

/-- The job will not change any more. -/
def isTerminal : JobState → Bool
  | completed | failed => true
  | queued | running => false

def all : List JobState := [queued, running, completed, failed]

def toJson (s : JobState) : Json := .text s.toText

def ofJson? (setting : Json.Setting) (j : Json) : Option JobState := do
  let name ← j.alternative? setting
  all.find? (fun s => s.toText = name)

end JobState

/-- What a client says. -/
inductive ClientMessage
  | hello (version : Nat)
  | execute (request : Request)
  | status (requestId : String)
  | fetchResult (requestId : String)
  | goodbye
  deriving DecidableEq

/-- What a server says. -/
inductive ServerMessage
  | hello (version : Nat) (backend : String)
  | accepted (requestId : String)
  | status (requestId : String) (state : JobState) (reason : Option String)
  | result (result : InferenceResult)
  | error (message : String)
  deriving DecidableEq

/-- A record with its kind in front. -/
def taggedRecord (kind : String) (fields : List (String × Json)) : Json :=
  .ofFields (("type", .text kind) :: fields)

/-- The part of a record that goes with one required field. -/
def soleField? (name : String) (j : Json) : Option Json := do
  match ← j.record? [name] with
  | [some value] => return value
  | _ => none

namespace ClientMessage

def kind : ClientMessage → String
  | hello _ => "hello"
  | execute _ => "execute"
  | status _ => "status"
  | fetchResult _ => "fetch_result"
  | goodbye => "goodbye"

def fields : ClientMessage → List (String × Json)
  | hello version => [("protocol_version", .nat version)]
  | execute request => [("request", request.toJson)]
  | status id | fetchResult id => [("request_id", .text id)]
  | goodbye => []

def toJson (m : ClientMessage) : Json := taggedRecord m.kind m.fields

/-- The message of a kind with the given fields. -/
def ofFields? (kind : String) (j : Json) : Option ClientMessage :=
  match kind with
  | "hello" => do return .hello (← EncryptionParameters.word? (← soleField? "protocol_version" j))
  | "execute" => do return .execute (← Request.ofJson? .withinTagged (← soleField? "request" j))
  | "status" => do return .status (← (← soleField? "request_id" j).text?)
  | "fetch_result" => do return .fetchResult (← (← soleField? "request_id" j).text?)
  | "goodbye" => do
    match j with
    | .array (_ :: _) => none
    | _ => return .goodbye
  | _ => none

def ofJson? (j : Json) : Option ClientMessage := do
  let (kind, fields) ← j.tagged? "type"
  ofFields? kind fields

end ClientMessage

namespace ServerMessage

def kind : ServerMessage → String
  | hello _ _ => "hello"
  | accepted _ => "accepted"
  | status _ _ _ => "status"
  | result _ => "result"
  | error _ => "error"

def fields : ServerMessage → List (String × Json)
  | hello version backend => [("protocol_version", .nat version), ("backend", .text backend)]
  | accepted id => [("request_id", .text id)]
  | status id state reason =>
    [("request_id", .text id), ("state", state.toJson)] ++
      reason.toList.map fun message => ("error", .text message)
  | result r => r.fields
  | error message => [("message", .text message)]

def toJson (m : ServerMessage) : Json := taggedRecord m.kind m.fields

/-- An optional text, which may also be `null`. -/
def optionalText? : Option Json → Option (Option String)
  | none | some .null => some none
  | some j => j.text?.map some

/-- The message of a kind with the given fields. -/
def ofFields? (kind : String) (j : Json) : Option ServerMessage :=
  match kind with
  | "hello" => do
    match ← j.record? ["protocol_version", "backend"] with
    | [some version, some backend] =>
      return .hello (← EncryptionParameters.word? version) (← backend.text?)
    | _ => none
  | "accepted" => do return .accepted (← (← soleField? "request_id" j).text?)
  | "status" => do
    match ← j.record? ["request_id", "state", "error"] with
    | [some id, some state, reason] =>
      return .status (← id.text?) (← JobState.ofJson? .withinTagged state) (← optionalText? reason)
    | _ => none
  | "result" => do return .result (← InferenceResult.ofJson? .withinTagged j)
  | "error" => do return .error (← (← soleField? "message" j).text?)
  | _ => none

def ofJson? (j : Json) : Option ServerMessage := do
  let (kind, fields) ← j.tagged? "type"
  ofFields? kind fields

end ServerMessage

end EncryptedInference
