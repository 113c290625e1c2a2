import EncryptedInference.Batch.Packing
/-!
# Laying slots out again

An unpacker knows how a result was packed and how many values it has for each example. It refuses
slots of another number or kind, and never reshapes them to fit.
-/

namespace EncryptedInference

/-- Why slots cannot be laid out. -/
inductive UnpackError
  | zeroSized (batchSize elements : Nat)
  | notDivisible (batchSize factor : Nat)
  | lengthMismatch (expected actual batchSize elements factor : Nat)
  | laneKindMismatch (expected actual : LaneKind) (factor : Nat)
  | missingOutput (name : String)
  deriving DecidableEq

namespace UnpackError

def message : UnpackError → String
  | zeroSized n e =>
    "batch size and elements per example must be non-zero (got " ++ toString n ++ " x " ++
      toString e ++ ")"
  | notDivisible n f =>
    "batch size " ++ toString n ++ " is not divisible by packing factor " ++ toString f
  | lengthMismatch expected actual n e f =>
    "result has " ++ toString actual ++ " slots, expected " ++ toString expected ++ " (batch " ++
      toString n ++ " x " ++ toString e ++ " / factor " ++ toString f ++ ")"
  | laneKindMismatch expected actual f =>
    "result carries " ++ actual.toText ++ " lanes but packing factor " ++ toString f ++
      " expects " ++ expected.toText ++ " lanes"
  | missingOutput name => "result has no output named '" ++ name ++ "'"

end UnpackError

/-- How a result is laid out again. -/
structure Unpacker where
  batchSize : Nat
  /-- The number of values for each example. -/
  elements : Nat
  order : ElementOrder
  factor : PackingFactor
  deriving DecidableEq

namespace Unpacker

/-- An unpacker for a batch that is not empty and that the factor divides. -/
def create (batchSize elements : Nat) (order : ElementOrder) (factor : PackingFactor) :
    Except UnpackError Unpacker :=
  if batchSize = 0 ∨ elements = 0 then .error (.zeroSized batchSize elements)
  else if batchSize % factor.value ≠ 0 then .error (.notDivisible batchSize factor.value)
  else .ok ⟨batchSize, elements, order.resolveFlat, factor⟩

/-- The unpacker for a result of a batch that was packed as `info` says. -/
def ofMeta (info : PackingMeta) (elements : Nat) : Except UnpackError Unpacker :=
  create info.batchSize elements info.order info.factor

/-- Lays slots out as one array per example of the given shape. -/
def unpackShaped (u : Unpacker) (slots : SlotVector) (featureShape : List Nat) :
    Except UnpackError Tensor :=
  let factor := u.factor.value
  let expected := u.batchSize * u.elements / factor
  if slots.length ≠ expected then
    .error (.lengthMismatch expected slots.length u.batchSize u.elements factor)
  else
    match u.factor, slots with
    | .one, .real values => .ok (Tensor.ofOrder u.order (u.batchSize :: featureShape) values)
    | .two, .complex values =>
      let half := Tensor.ofOrder u.order (u.batchSize / 2 :: featureShape)
      .ok ⟨u.batchSize :: featureShape,
        (half (values.map (·.re))).data ++ (half (values.map (·.im))).data⟩
    | _, _ => .error (.laneKindMismatch (.ofFactor u.factor) slots.kind factor)

/-- Lays slots out with one row per example. -/
def unpack (u : Unpacker) (slots : SlotVector) : Except UnpackError Matrix := do
  let t ← u.unpackShaped slots [u.elements]
  return ⟨u.batchSize, u.elements, t.data⟩

/-- Lays the output of a given name out with one row per example. -/
def unpackOutput (u : Unpacker) (outputs : NameMap SlotVector) (name : String) :
    Except UnpackError Matrix :=
  match outputs.get? name with
  | none => .error (.missingOutput name)
  | some slots => u.unpack slots

/-- The batch that was packed. -/
def unpackPacked (packed : PackedBatch) : Except UnpackError Tensor := do
  let u ← ofMeta packed.info packed.info.elements
  u.unpackShaped packed.slots packed.info.featureShape

end Unpacker

end EncryptedInference
