import EncryptedInference.Batch.Slots
import EncryptedInference.Tensor.Shape
import EncryptedInference.Tensor.View
/-!
# Packing a batch into slots

A batch is an array whose first axis runs over the examples. With one example per slot it is
flattened in the chosen order; with two, its first half becomes the real parts and its second half
the imaginary parts, both flattened in the order that was resolved on the whole batch.
-/

namespace EncryptedInference

/-- Why a batch cannot be packed. -/
inductive PackingError
  | missingBatchAxis
  | emptyBatch
  | notDivisible (batchSize factor : Nat)
  | lengthMismatch (expected actual batchSize elements : Nat)
  | nonFinite (slot : Nat)
  deriving DecidableEq

namespace PackingError

def message : PackingError → String
  | missingBatchAxis => "input has no batch axis (0-dimensional array)"
  | emptyBatch => "cannot pack an empty batch"
  | notDivisible n f =>
    "batch size " ++ toString n ++ " is not divisible by packing factor " ++ toString f
  | lengthMismatch expected actual n e =>
    "flat input has " ++ toString actual ++ " values, expected " ++ toString expected ++
      " (batch of " ++ toString n ++ " x " ++ toString e ++ ")"
  | nonFinite i => "slot " ++ toString i ++ " holds a non-finite value (NaN or infinity)"

end PackingError

/-- What has to be known about a batch to lay it out again. -/
structure PackingMeta where
  batchSize : Nat
  /-- The shape of one example. -/
  featureShape : List Nat
  order : ElementOrder
  factor : PackingFactor
  deriving DecidableEq

namespace PackingMeta

/-- The number of values of one example. -/
def elements (m : PackingMeta) : Nat := elementCount m.featureShape

/-- The number of slots of the batch. -/
def slotCount (m : PackingMeta) : Nat := m.batchSize * m.elements / m.factor.value

def batchShape (m : PackingMeta) : List Nat := m.batchSize :: m.featureShape

def toJson (m : PackingMeta) : Json :=
  .ofFields [("batch_size", .nat m.batchSize), ("feature_shape", .array (m.featureShape.map .nat)),
    ("order", m.order.toJson), ("factor", m.factor.toJson)]

def ofJson? (setting : Json.Setting) (j : Json) : Option PackingMeta := do
  match ← j.record? ["batch_size", "feature_shape", "order", "factor"] with
  | [some batchSize, some featureShape, some order, some factor] =>
    return {
      batchSize := ← batchSize.size?
      featureShape := ← featureShape.list? Json.size?
      order := ← ElementOrder.ofJson? setting order
      factor := ← PackingFactor.ofJson? factor }
  | _ => none

end PackingMeta

/-- A batch in slots, with what is needed to lay it out again. -/
structure PackedBatch where
  slots : SlotVector
  info : PackingMeta
  deriving DecidableEq

/-- How batches are packed: the order of the elements, and the number of examples in a slot. -/
structure Packer where
  order : ElementOrder
  factor : PackingFactor
  deriving DecidableEq

namespace Packer

/-- The slots of a batch of `batchSize` examples whose order is already resolved. -/
def slots (factor : PackingFactor) (order : ElementOrder) (batchSize : Nat) (v : View) :
    Except PackingError SlotVector :=
  match factor with
  | .one => .ok (.real (v.flatten order))
  | .two =>
    let half := batchSize / 2
    let re := (v.examples 0 half).flatten order
    let im := (v.examples half (batchSize - half)).flatten order
    match SlotVector.ofHalves? re im with
    | some s => .ok s
    | none => .error (.notDivisible batchSize factor.value)

/-- Packs a batch whose first axis runs over the examples. -/
def pack (p : Packer) (v : View) : Except PackingError PackedBatch :=
  match v.shape with
  | [] => .error .missingBatchAxis
  | batchSize :: featureShape =>
    if batchSize = 0 then .error .emptyBatch
    else if batchSize % p.factor.value ≠ 0 then .error (.notDivisible batchSize p.factor.value)
    else do
      let order := v.resolveOrder p.order
      let s ← slots p.factor order batchSize v
      match s.firstNonFinite? with
      | some i => .error (.nonFinite i)
      | none => .ok ⟨s, ⟨batchSize, featureShape, order, p.factor⟩⟩

/-- Packs a batch given as its elements with the last axis fastest. -/
def packFlat (p : Packer) (data : List Double) (batchSize : Nat) (featureShape : List Nat) :
    Except PackingError PackedBatch :=
  let elements := elementCount featureShape
  let expected := batchSize * elements
  let shape := batchSize :: featureShape
  if data.length ≠ expected ∨ maxElements < elementCount (shape.filter (· ≠ 0)) then
    .error (.lengthMismatch expected data.length batchSize elements)
  else p.pack (View.ofRowMajor shape data)

end Packer

end EncryptedInference
