import EncryptedInference.Batch.Packing
import EncryptedInference.Encryption.Config
/-!
# Requests and results

A request carries packed tensors and the description of how the engine is to treat them. A request
built here knows its configuration, and each tensor is checked against it; one that came over the
wire does not.
-/

namespace EncryptedInference

/-- Why a tensor or a request is refused. -/
inductive RequestError
  | emptyRequest
  | emptyBatch
  | batchSizeMismatch (tensor : String) (expected actual : Nat)
  | packingFactorMismatch (tensor : String) (expected actual : Nat)
  | slotCapacityExceeded (tensor : String) (required capacity : Nat)
  | duplicateTensor (tensor : String)
  deriving DecidableEq

namespace RequestError

def message : RequestError → String
  | emptyRequest => "request has no tensors"
  | emptyBatch => "batch size must be non-zero"
  | batchSizeMismatch t expected actual =>
    "tensor '" ++ t ++ "' has batch size " ++ toString actual ++ ", request batch size is " ++
      toString expected
  | packingFactorMismatch t expected actual =>
    "tensor '" ++ t ++ "' packed with factor " ++ toString actual ++ ", config requires " ++
      toString expected
  | slotCapacityExceeded t required capacity =>
    "tensor '" ++ t ++ "' needs " ++ toString required ++
      " slots per ciphertext, parameters provide " ++ toString capacity
  | duplicateTensor t => "tensor '" ++ t ++ "' added twice"

end RequestError

/-- Packed tensors, and how they are to be treated. -/
structure Request where
  batchSize : Nat
  tensors : NameMap SlotVector
  packing : NameMap PackingMeta
  directives : NameMap Directive
  parameters : NameMap String
  /-- The configuration the request was built from; it does not travel. -/
  config : Option Config
  deriving DecidableEq

namespace Request

/-- The request without tensors. -/
def create (batchSize : Nat) (c : Config) : Request where
  batchSize
  tensors := .empty
  packing := .empty
  directives := c.directives
  parameters := c.parameterMap
  config := some c

/-- The slots a tensor needs when one value of every example goes into a ciphertext. -/
def slotsRequired (info : PackingMeta) : Nat := info.batchSize / info.factor.value

/-- What the configuration holds against a tensor. -/
def configError? (c : Config) (name : String) (info : PackingMeta) : Option RequestError :=
  if info.factor ≠ c.packingFactor then
    some (.packingFactorMismatch name c.packingFactor.value info.factor.value)
  else if (c.packData || c.directive name = .packed) && c.slotCapacity < slotsRequired info then
    some (.slotCapacityExceeded name (slotsRequired info) c.slotCapacity)
  else none

/-- Why a tensor is refused. -/
def tensorError? (r : Request) (name : String) (info : PackingMeta) : Option RequestError :=
  if r.tensors.contains name then some (.duplicateTensor name)
  else if info.batchSize ≠ r.batchSize then
    some (.batchSizeMismatch name r.batchSize info.batchSize)
  else r.config.bind fun c => configError? c name info

/-- The directives with the one that the configuration gives to a new tensor. -/
def directivesWith (r : Request) (name : String) : NameMap Directive :=
  match r.config with
  | some c =>
    if r.directives.contains name then r.directives else r.directives.insert name (c.directive name)
  | none => r.directives

/-- The request with one more tensor. -/
def withTensor (r : Request) (name : String) (packed : PackedBatch) : Except RequestError Request :=
  match r.tensorError? name packed.info with
  | some e => .error e
  | none => .ok { r with
      tensors := r.tensors.insert name packed.slots
      packing := r.packing.insert name packed.info
      directives := r.directivesWith name }

/-- A request needs examples and tensors. -/
def validate (r : Request) : Except RequestError Unit :=
  if r.batchSize = 0 then .error .emptyBatch
  else if r.tensors.isEmpty then .error .emptyRequest
  else .ok ()

end Request

/-- A map as an object, its names in order. -/
def NameMap.toJson {α : Type} (value : α → Json) (m : NameMap α) : Json :=
  .ofFields (m.entries.map fun e => (e.1, value e.2))

namespace Request

def fieldNames : List String := ["batch_size", "tensors", "packing", "directives", "parameters"]

def toJson (r : Request) : Json :=
  .ofFields [("batch_size", .nat r.batchSize), ("tensors", r.tensors.toJson SlotVector.toJson),
    ("packing", r.packing.toJson PackingMeta.toJson),
    ("directives", r.directives.toJson Directive.toJson),
    ("parameters", r.parameters.toJson Json.text)]

def ofJson? (setting : Json.Setting) (j : Json) : Option Request := do
  match ← j.record? fieldNames with
  | [some batchSize, some tensors, some packing, some directives, some parameters] =>
    return {
      batchSize := ← batchSize.size?
      tensors := ← tensors.map? (SlotVector.ofJson? setting)
      packing := ← packing.map? (PackingMeta.ofJson? setting)
      directives := ← directives.map? (Directive.ofJson? setting)
      parameters := ← parameters.map? Json.text?
      config := none }
  | _ => none

end Request

/-- The outputs of a request. -/
structure InferenceResult where
  requestId : String
  outputs : NameMap SlotVector
  deriving DecidableEq

namespace InferenceResult

def fieldNames : List String := ["request_id", "outputs"]

def fields (r : InferenceResult) : List (String × Json) :=
  [("request_id", .text r.requestId), ("outputs", r.outputs.toJson SlotVector.toJson)]

def toJson (r : InferenceResult) : Json := .ofFields r.fields

def ofJson? (setting : Json.Setting) (j : Json) : Option InferenceResult := do
  match ← j.record? fieldNames with
  | [some requestId, some outputs] =>
    return {
      requestId := ← requestId.text?
      outputs := ← outputs.map? (SlotVector.ofJson? setting) }
  | _ => none

end InferenceResult

end EncryptedInference
