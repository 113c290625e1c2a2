import EncryptedInference.CommandLine.Arguments
import EncryptedInference.Client.Wait
/-!
# Options

What a command line asks for. An option that is not given has a default, or leaves a setting to the
environment.
-/

namespace EncryptedInference.CommandLine

/-- A command line that was understood. -/
structure Options where
  input : String
  labels : Option String
  batchSize : Option Nat
  hostname : String
  port : Nat
  backend : Option String
  encryptionParameters : Option String
  enableClient : Option Bool
  encryptServerData : Option Bool
  packData : Option Bool
  complexPacking : Option Bool
  tensorName : String
  outputName : Option String
  order : ElementOrder
  resultLayout : ScoreLayout
  /-- In milliseconds. -/
  pollInterval : Nat
  /-- In seconds. -/
  timeout : Option Nat
  connectRetries : Nat
  /-- In milliseconds. -/
  retryBackoff : Nat
  json : Bool

/-! ## Values -/

/-- A path, which is not empty. -/
def path? (s : String) : Option String := if s.isEmpty then none else some s

/-- A number of at most 64 bits. -/
def count? (s : String) : Option Nat := (Text.natural? s).filter (· < 0x10000000000000000)

/-- A number below a limit, in which a zero may have either sign. -/
def bounded? (limit : Nat) (s : String) : Option Nat :=
  (Text.integer? s).bind fun n => if 0 ≤ n ∧ n < limit then some n.toNat else none

def flag? (s : String) : Option Bool := (parseFlag "flag" s).toOption

/-- The value of an option, if it is given. -/
def valueOf {α : Type} (given : List Given) (name : OptionName) (read : String → Option α) :
    Except UsageError (Option α) :=
  match given.lookup name with
  | none => .ok none
  | some text => match read text with
    | some value => .ok (some value)
    | none => .error (.invalidValue name text)

/-- The value of an option, or else its default. -/
def valueOr {α : Type} (given : List Given) (name : OptionName) (read : String → Option α)
    (default : α) : Except UsageError α :=
  (valueOf given name read).map fun value => value.getD default

namespace Options

def defaultPort : Nat := 34000

def defaultTensorName : String := "import/input"

def ofGiven (given : List Given) : Except UsageError Options := do
  let input ← match ← valueOf given .input path? with
    | some path => .ok path
    | none => .error (.missingOption .input)
  return {
    input
    labels := ← valueOf given .labels path?
    batchSize := ← valueOf given .batchSize count?
    hostname := ← valueOr given .hostname some "localhost"
    port := ← valueOr given .port (bounded? 0x10000) defaultPort
    backend := ← valueOf given .backend some
    encryptionParameters := ← valueOf given .encryptionParameters some
    enableClient := ← valueOf given .enableClient flag?
    encryptServerData := ← valueOf given .encryptServerData flag?
    packData := ← valueOf given .packData flag?
    complexPacking := ← valueOf given .complexPacking flag?
    tensorName := ← valueOr given .tensorName some defaultTensorName
    outputName := ← valueOf given .outputName some
    order := ← valueOr given .order (fun s => (ElementOrder.ofText s).toOption) .rowMajor
    resultLayout := ← valueOr given .resultLayout (fun s => (ScoreLayout.ofText s).toOption)
      .batchByClass
    pollInterval := ← valueOr given .pollInterval count? PollPolicy.standard.interval
    timeout := ← valueOf given .timeout count?
    connectRetries := ← valueOr given .connectRetries (bounded? 0x100000000) 0
    retryBackoff := ← valueOr given .retryBackoff count? RetryPolicy.standard.backoff
    json := (given.lookup .json).isSome }

/-- What arguments ask for. -/
def ofArguments (args : List String) : Except UsageError Options := do
  ofGiven (← Given.ofArguments args)

/-! ## What options mean -/

/-- The changes that options make to the settings of the environment. -/
def changes (o : Options) : List SettingsChange :=
  o.backend.toList.map .backend ++
  o.encryptionParameters.toList.map (fun s => .source (.ofText s)) ++
  o.enableClient.toList.map .enableClient ++
  o.encryptServerData.toList.map .encryptServerData ++
  o.packData.toList.map .packData ++
  o.complexPacking.toList.map .complexPacking ++
  [.input o.tensorName, .resultLayout o.resultLayout]

/-- The configuration for an environment and options. -/
def config (files : FileSystem) (environment : String → Option String) (o : Options) :
    Except ConfigError Config := do
  let settings ← Settings.ofEnvironment environment
  (settings.changes o.changes).build files

/-- Where the server is. -/
def address (o : Options) : String := o.hostname ++ ":" ++ toString o.port

/-- The largest number of attempts to connect. -/
def maxAttempts : Nat := 0xFFFFFFFF

def retryPolicy (o : Options) : RetryPolicy :=
  ⟨min (o.connectRetries + 1) maxAttempts, o.retryBackoff⟩

/-- A waiting client pauses for at least a millisecond. -/
def pollPolicy (o : Options) : PollPolicy :=
  ⟨max o.pollInterval 1, o.timeout.map (1000 * ·)⟩

end Options

end EncryptedInference.CommandLine
