import EncryptedInference.CommandLine.Materials
import EncryptedInference.CommandLine.Options
import EncryptedInference.CommandLine.Summary
/-!
# Runs

A run of the client in three steps: `prepare` builds the configuration, reads the files and packs
the batch; `consult` has a server compute the result; `conclude` says what came out. A run
ends with a printed summary, with a message about what went wrong, or breaks off: at an input
without the axis that it is told to cut, and at a result without the output that it is told to read.
It does not end while its wait goes on.
-/

namespace EncryptedInference.CommandLine

/-- Why a run has no summary. -/
inductive RunError
  | config (error : ConfigError)
  | input (error : InputError)
  | packing (error : PackingError)
  | labels (error : LabelError)
  | request (error : RequestError)
  | client (error : ClientError)
  | result (error : ResultError)
  deriving DecidableEq

namespace RunError

def message : RunError → String
  | config e => e.message
  | input e => e.message
  | packing e => e.message
  | labels e => e.message
  | request e => e.message
  | client e => e.message
  | result e => e.message

/-- The run breaks off without a word of its own. -/
def breaksOff : RunError → Bool
  | input .noBatchAxis => true
  | result (.noSuchOutput _) => true
  | _ => false

end RunError

/-- How the program ends. -/
inductive Ending
  /-- The command line is not accepted. -/
  | refused (error : UsageError)
  | printed (text : String)
  | failed (message : String)
  | brokenOff

namespace Ending

def code : Ending → Nat
  | printed _ => 0
  | failed _ => 1
  | refused _ => 2
  | brokenOff => 101

/-- What goes to standard output. -/
def output : Ending → String
  | printed text => text
  | _ => ""

/-- What is said about a failure. -/
def complaint? : Ending → Option String
  | failed message => some ("Error: " ++ message)
  | refused error => some ("error: " ++ error.message)
  | printed _ | brokenOff => none

/-- How a run ends that has no summary. -/
def ofError (e : RunError) : Ending := if e.breaksOff then brokenOff else failed e.message

def ofOutcome : Except RunError String → Ending
  | .ok text => printed text
  | .error e => ofError e

end Ending

/-! ## Steps of a run -/

/-- Where a run takes place: its files, its environment, what dialling a server gives, how channels
behave, and how many polls of a wait are followed. -/
structure Surroundings (σ : Type) where
  files : FileSystem
  environment : String → Option String
  dial : Nat → Except String σ
  transport : Transport σ
  polls : Nat

/-- All that is decided before a server is reached. -/
structure Preparation where
  request : Request
  info : PackingMeta
  labels : Option (List Nat)

/-- Builds the configuration, reads the files and packs the batch. -/
def prepare (files : FileSystem) (environment : String → Option String) (o : Options) :
    Except RunError Preparation := do
  let config ← (o.config files environment).mapError .config
  let batch ← (readBatch files o.input o.batchSize).mapError .input
  let packed ← (Packer.pack ⟨o.order, config.packingFactor⟩ batch).mapError .packing
  let labels ← match o.labels with
    | some path => ((readLabels files path packed.info.batchSize).mapError .labels).map some
    | none => .ok none
  let request ← ((Request.create packed.info.batchSize config).withTensor o.tensorName
    packed).mapError .request
  return ⟨request, packed.info, labels⟩

/-- Connects, submits the request, waits for its result, and says goodbye. -/
def consult {σ : Type} (w : Surroundings σ) (o : Options) (request : Request) (s : TimedClient σ) :
    Progress InferenceResult × TimedClient σ :=
  match s.connect w.transport o.retryPolicy o.address w.dial with
  | (.error e, s) => (.returned (.error e), s)
  | (.ok (), s) => match s.run w.transport w.polls o.pollPolicy request with
    | (.returned (.ok result), s) => (.returned (.ok result), (s.close w.transport).2)
    | (progress, s) => (progress, s)

/-- What is printed about the outcome of a prepared run. -/
def conclude (o : Options) (p : Preparation) (outcome : Except ClientError InferenceResult) :
    Except RunError String := do
  let result ← outcome.mapError .client
  let summary ← (Summary.ofResult p.info o.resultLayout p.labels o.outputName result).mapError
    .result
  return summary.toText o.json

/-- How a prepared run ends that has come so far with its server. -/
def endingAfter (o : Options) (p : Preparation) : Progress InferenceResult → Option Ending
  | .returned outcome => some (.ofOutcome (conclude o p outcome))
  | .panicked => some .brokenOff
  | .ongoing => none

/-- How a run ends, if it does. -/
def run {σ : Type} (w : Surroundings σ) (o : Options) : Option Ending :=
  match prepare w.files w.environment o with
  | .error e => some (.ofError e)
  | .ok p => endingAfter o p (consult w o p.request .initial).1

/-- How the program ends for the given arguments, if it does within the polls that are followed. -/
def ending {σ : Type} (w : Surroundings σ) (args : List String) : Option Ending :=
  match Options.ofArguments args with
  | .error e => some (.refused e)
  | .ok o => run w o

end EncryptedInference.CommandLine
